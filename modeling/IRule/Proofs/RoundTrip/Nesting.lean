import IRule.Proofs.RoundTrip.Assignment
import IRule.Proofs.RoundTrip.Kept
import IRule.Proofs.RoundTrip.Leading

/-!
# Words, commands and expressions in each other

Words embed commands, commands take words, and expressions stand for commands: all are read back
at every depth.
-/

namespace IRule

namespace Parser

open Lexeme (Breaks Severs Spells)

variable {names : Names}

/-! ## Words in their places -/

/-- A word is read back, and as one piece if it is one. -/
structure Restores (names : Names) (word : Expression) : Prop where
  piece : word.isPiece → ReadsBack names word
  whole : ReadsWhole names word

theorem ReadsBack.restores {word : Expression} (reads : ReadsBack names word) :
    Restores names word :=
  ⟨fun _ => reads, reads.whole⟩

theorem Restores.argues {word : Expression} (restores : Restores names word)
    (legible : word.legibleArgument names) : Argues names word :=
  ⟨restores.whole, begins_of_legibleArgument legible⟩

theorem isPiece_of_not_isBare {word : Expression} (notBare : word.isBare = false) :
    word.isPiece := by
  rcases word with ⟨_, _, _ | _, _⟩ | _
  case identifier.false => simp [Expression.isBare] at notBare
  all_goals rfl

/-- A piece that is read back is the key or the value of a hash. -/
theorem Restores.fills {word : Expression} (restores : Restores names word)
    (legible : word.legibleArgument names) (piece : word.isPiece) : Fills names word := by
  refine ⟨restores.piece piece, ?_⟩
  cases bare : word.isBare with
  | false => exact starts_of_legibleArgument legible bare
  | true =>
    obtain ⟨token, name, isReserved, rfl⟩ := exists_of_isBare bare
    simp only [Expression.isPiece, isLegibleWord, Bool.and_eq_true] at piece
    exact .inl (by simpa [Expression.written] using starts_of_isBareWord piece.1.1)

/-- A key that is a single token is one where it is written. -/
theorem isToken_written {word : Expression} (legible : word.legibleArgument names)
    (piece : word.isPiece) (single : word.isToken) : IsToken word.written.toList := by
  intro braces brackets rest breaks
  cases word with
  | identifier token name isVariable isReserved =>
    cases isVariable with
    | false =>
      simp only [Expression.isPiece, isLegibleWord, Bool.and_eq_true] at piece
      exact ⟨_, by simpa [Expression.written] using .bareWord piece.1.1 breaks⟩
    | true =>
      simp only [Expression.legibleArgument, Bool.and_eq_true] at legible
      exact ⟨_, by simpa [Expression.written] using spells_referenceText legible.1 breaks⟩
  | number token value => exact ⟨_, .number value breaks⟩
  | boolean token value =>
    have bare : Lexeme.isBareWord (if value then "true" else "false").toList := by
      cases value <;> decide
    exact ⟨_, .bareWord bare breaks⟩
  | string token text =>
    simp only [Expression.legibleArgument, isCutInto, Bool.and_eq_true] at legible
    exact ⟨_, by simpa [Expression.written] using
      Spells.string (Lexeme.Enclosed.of_isEnclosed legible.1).2⟩
  | address token text =>
    simp only [Expression.legibleArgument] at legible
    exact ⟨_, .address legible breaks.endsDigits⟩
  | interpolated token raw parts =>
    simp only [Expression.legibleArgument, isCutInto, Bool.and_eq_true] at legible
    exact ⟨_, by simpa [Expression.written] using
      Spells.string (Lexeme.Enclosed.of_isEnclosed legible.2.1).2⟩
  | _ => simp [Expression.isToken] at single

/-- Words other than bare ones are operands. -/
theorem Restores.stated {word : Expression} (restores : Restores names word)
    (legible : word.legibleArgument names) (notBare : word.isBare = false)
    (leftRank : word.leftRank = topRank) (rightRank : word.rightRank = topRank) :
    Stated names word :=
  .of_ranks topRank
    (readsExpression_of_readsBack (restores.piece (isPiece_of_not_isBare notBare))
      (opens_of_legibleArgument legible notBare))
    (startsOperand_of_legibleArgument legible notBare) leftRank rightRank (by decide)

/-- Variables declared in a list. -/
theorem names_list (token : Token) (elements : List Expression) :
    (Expression.list token elements).names = wordNames elements := by
  simp [Expression.names, wordNames, Node.declares]

/-! ## Everything in everything -/

mutual

/-- Legible words are read back. -/
theorem restores_of_legible (names : Names) : (word : Expression) → word.legibleArgument names →
    word.Valid → Restores names word
  | .identifier _ name isVariable _ => by
    intro legible _
    cases isVariable with
    | false =>
      simp only [Expression.legibleArgument, Bool.and_eq_true, Bool.not_eq_true',
        Bool.and_eq_false_imp] at legible
      exact ⟨fun piece => readsBack_bare (by simpa [Expression.isPiece] using piece),
        readsWhole_literal legible.1 (by simpa using legible.2)⟩
    | true =>
      simp only [Expression.legibleArgument, Bool.and_eq_true] at legible
      exact (readsBack_reference legible.1 legible.2).restores
  | .number _ value => fun _ _ => (readsBack_number value).restores
  | .boolean _ value => fun _ _ => (readsBack_boolean value).restores
  | .string _ text => fun legible _ =>
    (readsBack_string (by simpa [Expression.legibleArgument] using legible)).restores
  | .address _ text => fun legible _ =>
    (readsBack_address (by simpa [Expression.legibleArgument] using legible)).restores
  | .element _ array key => by
    intro legible valid
    rcases array with ⟨inner, name, _ | _, isReserved⟩ | _
    case identifier.true =>
      simp only [Expression.legibleArgument, Bool.and_eq_true] at legible
      simp only [Expression.Valid, true_and] at valid
      exact (readsBack_element legible.1.1 legible.1.2
        (restores_of_legible names.inKey key legible.2 valid).whole
        (begins_of_legibleArgument legible.2)).restores
    all_goals simp [Expression.legibleArgument] at legible
  | .bracket _ commands => fun legible valid => by
    simp only [Expression.legibleArgument] at legible
    simp only [Expression.Valid] at valid
    exact (readsBack_bracket (embeds_of_legible names commands legible valid)).restores
  | .interpolated _ _ parts => fun legible valid => by
    simp only [Expression.legibleArgument, Bool.and_eq_true, Bool.not_eq_true'] at legible
    simp only [Expression.Valid] at valid
    obtain ⟨⟨embedded, embedding⟩, cut⟩ := legible
    exact (readsBack_interpolated (embedsParts_of_legible names.unchecked parts embedded valid)
      embedding cut).restores
  | .list _ elements => fun legible valid => by
    simp only [Expression.legibleArgument, Bool.or_eq_true, Bool.and_eq_true, Bool.not_eq_true']
      at legible
    simp only [Expression.Valid] at valid
    obtain kept | ⟨⟨words, braced⟩, single⟩ := legible
    · exact (readsBack_kept kept).restores
    · exact (readsBack_list braced single
        (argues_of_legible names.unchecked elements words valid)).restores
  | .hash _ pairs => fun legible valid => by
    simp only [Expression.legibleArgument, Bool.and_eq_true] at legible
    simp only [Expression.Valid] at valid
    obtain ⟨⟨single, entries⟩, braced⟩ := legible
    have fills := fills_of_legible names.unchecked pairs entries valid
    cases pairs with
    | nil => simp at single
    | cons entry pairs =>
      obtain ⟨key, value⟩ := entry
      simp only [legibleEntries, Bool.and_eq_true] at entries
      exact (readsBack_hash braced
        (isToken_written entries.1.1.1.1 entries.1.1.1.2 (by simpa using single)) fills).restores
  | .invalid .. | .unary .. | .binary .. | .group .. | .computed .. | .call ..
  | .invocation .. | .mapping .. | .handler .. | .namespaced .. | .stringOperation ..
  | .classCommand .. | .regsub .. | .substitution .. | .regex .. | .target .. => fun legible => by
    simp [Expression.legibleArgument] at legible
termination_by word => (sizeOf word, 0)

theorem argues_of_legible (names : Names) : (words : List Expression) →
    legibleArguments names words → AllValid words → ArguesAll names words
  | [] => fun _ _ => .nil
  | word :: rest => fun legible valid => by
    simp only [legibleArguments, Bool.and_eq_true] at legible
    simp only [AllValid] at valid
    exact .cons ((restores_of_legible names word legible.1 valid.1).argues legible.1)
      (argues_of_legible _ rest legible.2 valid.2)
termination_by words => (sizeOf words, 0)

theorem arguesPairs_of_legible (names : Names) : (pairs : List (Expression × Expression)) →
    legiblePairs names pairs → PairsValid pairs → ArguesAll names (members pairs)
  | [] => fun _ _ => .nil
  | (first, second) :: rest => fun legible valid => by
    simp only [legiblePairs, Bool.and_eq_true] at legible
    simp only [PairsValid] at valid
    exact .cons ((restores_of_legible names first legible.1.1 valid.1).argues legible.1.1)
      (.cons ((restores_of_legible _ second legible.1.2 valid.2.1).argues legible.1.2)
        (arguesPairs_of_legible _ rest legible.2 valid.2.2))
termination_by pairs => (sizeOf pairs, 0)

theorem fills_of_legible (names : Names) : (pairs : List (Expression × Expression)) →
    legibleEntries names pairs → PairsValid pairs → FillsAll names pairs
  | [] => fun _ _ => .nil
  | (key, value) :: rest => fun legible valid => by
    simp only [legibleEntries, Bool.and_eq_true] at legible
    simp only [PairsValid] at valid
    obtain ⟨⟨⟨⟨first, firstPiece⟩, second⟩, secondPiece⟩, later⟩ := legible
    exact .cons ((restores_of_legible names key first valid.1).fills first firstPiece)
      ((restores_of_legible _ value second valid.2.1).fills second secondPiece)
      (fills_of_legible _ rest later valid.2.2)
termination_by pairs => (sizeOf pairs, 0)

theorem arguesMapped_of_legible (names : Names) : (words : List Expression) →
    legibleMapped names words → AllValid words → ArguesAll names (unpaired words)
  | [] => fun _ _ => .nil
  | word :: rest => by
    intro legible valid
    simp only [AllValid] at valid
    have here := fun legible => (restores_of_legible names word legible valid.1).argues legible
    have plain := fun names legible => argues_of_legible names rest legible valid.2
    have mapped := fun names legible => arguesMapped_of_legible names rest legible valid.2
    cases word with
    | mapping token pairs =>
      simp only [legibleMapped, Bool.and_eq_true, Bool.not_eq_true',
        writtenPairs_members] at legible
      simp only [Expression.Valid] at valid
      obtain ⟨⟨⟨inner, braced⟩, single⟩, behind⟩ := legible
      have argues := arguesPairs_of_legible names.unchecked pairs inner valid.1
      exact .cons ⟨(readsBack_list braced single argues).whole,
        begins_of_openBrace (by simp [Expression.written])⟩ (plain _ (by rwa [names_list]))
    | list token elements =>
      simp only [legibleMapped, Bool.and_eq_true] at legible
      exact .cons (here legible.1.1) (plain _ (by rw [names_list]; exact legible.2))
    | _ =>
      simp only [legibleMapped, Bool.and_eq_true] at legible
      exact .cons (here legible.1) (mapped _ legible.2)
termination_by words => (sizeOf words, 0)

theorem embedsParts_of_legible (names : Names) : (parts : List Expression) →
    legibleParts names parts → AllValid parts → EmbedsParts names parts
  | [] => fun _ _ => .nil
  | part :: rest => by
    intro legible valid
    simp only [AllValid] at valid
    have later := fun names legible => embedsParts_of_legible names rest legible valid.2
    rcases part with ⟨_, name, _ | _, _⟩ | _
    case string =>
      simp only [legibleParts, Bool.and_eq_true, Bool.not_eq_true'] at legible
      exact .string legible.1 (later names legible.2)
    case identifier.true =>
      simp only [legibleParts] at legible
      exact .reference (later names legible)
    case substitution token commands =>
      simp only [legibleParts, Bool.and_eq_true, Bool.not_eq_true', List.isEmpty_eq_false_iff]
        at legible
      simp only [Expression.Valid] at valid
      exact .substitution legible.1.1 (embeds_of_legible names commands legible.1.2 valid.1)
        (later _ legible.2)
    all_goals simp [legibleParts] at legible
termination_by parts => (sizeOf parts, 0)

/-- Legible targets are read back. -/
theorem readsTarget_of_legible (names : Names) : (word : Expression) → word.legibleTarget names →
    word.Valid → ReadsTarget names word
  | .identifier token name false isReserved => fun legible _ => by
    simp only [Expression.legibleTarget, Bool.and_eq_true] at legible
    exact readsTarget_raw legible.1.1 legible.1.2 legible.2
  | .computed token inner => fun legible valid => by
    cases inner with
    | bracket place commands =>
      simp only [Expression.legibleTarget] at legible
      simp only [Expression.Valid] at valid
      exact readsTarget_computed (embeds_of_legible names commands legible valid)
    | _ => simp [Expression.legibleTarget] at legible
  | .identifier _ _ true _ | .string .. | .interpolated .. => fun legible valid =>
    have word : Expression.legibleArgument names _ := by
      simpa [Expression.legibleTarget, Expression.legibleArgument] using legible
    readsTarget_word ((restores_of_legible names _ word valid).argues word) word rfl (by simp)
  | .element token array key => fun legible valid => by
    have word : (Expression.element token array key).legibleArgument names := by
      rcases array with ⟨_, _, _ | _, _⟩ | _
      case identifier.true =>
        simpa [Expression.legibleTarget, Expression.legibleArgument] using legible
      all_goals simp [Expression.legibleTarget] at legible
    exact readsTarget_word ((restores_of_legible names _ word valid).argues word) word rfl (by simp)
  | .invalid .. | .number .. | .boolean .. | .address .. | .unary .. | .binary .. | .group ..
  | .call .. | .invocation .. | .bracket .. | .list .. | .hash .. | .mapping .. | .handler ..
  | .namespaced .. | .stringOperation .. | .classCommand .. | .regsub .. | .substitution ..
  | .regex .. | .target .. => fun legible => by simp [Expression.legibleTarget] at legible
termination_by word => (sizeOf word, 1)

/-- Legible commands are read back. -/
theorem readsCommand_of_legible (names : Names) : (command : Expression) →
    command.legibleCommand names → command.Valid → ReadsCommand names command
  | .invocation token name arguments => by
    intro legible valid
    simp only [Expression.Valid] at valid
    have argues := fun names legible => argues_of_legible names arguments legible valid.2
    have stated := fun legible => stated_of_legible names name legible valid.1
    rcases name with ⟨inner, name, _ | _, isReserved⟩ | _
    case identifier.false =>
      simp only [Expression.legibleCommand] at legible
      split at legible
      · rename_i isSet
        obtain rfl := beq_iff_eq.1 isSet
        match arguments, legible, valid.2 with
        | [left, right], legible, valid =>
          simp only [legibleAssignment, Bool.and_eq_true] at legible
          simp only [AllValid] at valid
          exact readsCommand_set (readsTarget_of_legible names left legible.1 valid.1)
            ((restores_of_legible _ right legible.2 valid.2.1).argues legible.2)
        | [], legible, _ | [_], legible, _ | _ :: _ :: _ :: _, legible, _ =>
          simp [legibleAssignment] at legible
      · simp only [Bool.and_eq_true] at legible
        obtain ⟨⟨⟨⟨⟨word, plain⟩, standalone⟩, words⟩, argument⟩, spared⟩ := legible
        exact readsCommand_invocation word plain standalone words argument spared
          (argues names words)
    all_goals
      simp only [Expression.legibleCommand, Bool.and_eq_true] at legible
      obtain ⟨⟨⟨named, leads⟩, words⟩, loose⟩ := legible
      exact readsCommand_named (stated named) named leads rfl (argues _ words) words loose
  | .namespaced _ family name arguments => by
    intro legible valid
    simp only [Expression.legibleCommand, Bool.and_eq_true] at legible
    simp only [Expression.Valid] at valid
    obtain ⟨⟨⟨⟨word, known⟩, words⟩, argument⟩, header⟩ := legible
    exact readsCommand_namespaced word known words argument header
      (argues_of_legible names arguments words valid.2)
  | .stringOperation _ operation arguments => by
    intro legible valid
    simp only [Expression.legibleCommand, Bool.and_eq_true, Bool.not_eq_true'] at legible
    simp only [Expression.Valid] at valid
    obtain ⟨⟨word, plain⟩, words⟩ := legible
    have mapped := arguesMapped_of_legible names arguments
    have others := argues_of_legible names arguments
    by_cases map : operation = "map"
    · simp only [map, beq_self_eq_true, if_true] at words
      exact readsCommand_stringOperation word plain (fun _ => words) valid.1
        (by simpa [givenArguments, map] using mapped words valid.2)
    · simp only [beq_eq_false_iff_ne.2 map, Bool.false_eq_true, if_false] at words
      exact readsCommand_stringOperation word plain (fun same => absurd same map) valid.1
        (by simpa [givenArguments, map] using others words valid.2)
  | .classCommand _ subcommand options arguments => by
    intro legible valid
    simp only [Expression.legibleCommand, Bool.and_eq_true] at legible
    simp only [Expression.Valid] at valid
    obtain ⟨⟨words, ends⟩, compares⟩ := legible
    exact readsCommand_class ends compares words valid.1
      (argues_of_legible names arguments words valid.2)
  | .regsub _ flags pattern input replacement result => by
    intro legible valid
    simp only [Expression.legibleCommand, Bool.and_eq_true, Bool.or_eq_true, Bool.not_eq_true',
      bne_iff_ne] at legible
    simp only [Expression.Valid] at valid
    obtain ⟨⟨⟨⟨⟨flagged, patterned⟩, first⟩, second⟩, third⟩, spared⟩ := legible
    have reads : ReadsPattern names pattern := by
      rcases patterned with verbatim | ⟨⟨⟨word, argument⟩, plain⟩, unbraced⟩
      · cases pattern with
        | regex place text => exact readsPattern_verbatim verbatim
        | _ => simp [isVerbatimPattern] at verbatim
      · exact readsPattern_word word argument plain unbraced
          ((restores_of_legible names pattern word valid.2.1).argues word)
    exact readsCommand_regsub flagged reads valid.1 spared
      (.cons ((restores_of_legible _ input first valid.2.2.1).argues first)
        (.cons ((restores_of_legible _ replacement second valid.2.2.2.1).argues second)
          (.cons ((restores_of_legible _ result third valid.2.2.2.2).argues third) .nil)))
  | .target _ kind arguments => by
    intro legible valid
    simp only [Expression.legibleCommand, Bool.and_eq_true] at legible
    simp only [Expression.Valid] at valid
    obtain ⟨words, argument⟩ := legible
    exact readsCommand_target words argument valid.1
      (argues_of_legible names arguments words valid.2)
  | .identifier .. | .number .. | .boolean .. | .string .. | .element .. | .bracket ..
  | .interpolated .. | .invalid .. | .address .. | .unary .. | .binary .. | .group ..
  | .computed .. | .call .. | .list .. | .hash .. | .mapping .. | .handler .. | .substitution ..
  | .regex .. =>
    fun legible => by simp [Expression.legibleCommand] at legible
termination_by command => (sizeOf command, 0)

/-- Legible commands and expressions are read back where a command may stand. -/
theorem embeds_of_legible (names : Names) : (commands : List Expression) →
    legibleCommands names commands → AllValid commands → EmbedsAll names commands
  | [] => fun _ _ => .nil
  | command :: rest => by
    intro legible valid
    simp only [legibleCommands, Bool.and_eq_true, Bool.or_eq_true, beq_iff_eq] at legible
    simp only [AllValid] at valid
    obtain ⟨⟨here, harmless⟩, later⟩ := legible
    refine .cons ?_ (embeds_of_legible _ rest later valid.2)
    rcases here with here | ⟨here, leads⟩
    · exact ⟨readsCommand_of_legible names command here valid.1, harmless,
        startsOperand_of_legibleCommand here⟩
    · exact ⟨readsCommand_expression (stated_of_legible names command here valid.1) here leads,
        harmless, startsOperand_of_legible command here⟩
termination_by commands => (sizeOf commands, 0)

/-- Legible expressions are read back. -/
theorem stated_of_legible (names : Names) : (expression : Expression) →
    expression.legibleExpression names → expression.Valid → Stated names expression
  | .binary token left operator right => by
    intro legible valid
    have starts := startsOperand_of_legible _ legible
    simp only [Expression.legibleExpression, Bool.and_eq_true, decide_eq_true_eq,
      Option.isSome_iff_exists] at legible
    obtain ⟨⟨⟨⟨⟨known, found⟩, leftLegible⟩, rightLegible⟩, weak⟩, strong⟩ := legible
    simp only [Expression.Valid, Expression.Sound] at valid
    obtain ⟨accepts, leftValid, rightValid⟩ := valid
    have leftStated := stated_of_legible names left leftLegible leftValid
    have rightStated := stated_of_legible _ right rightLegible rightValid
    obtain rfl : known.text = operator := by
      simpa [Operator.ofText?] using List.find?_some found
    rw [operatorRank_text] at weak strong
    have least : Precedence.lowest.rank < known.rank := by cases known <;> decide
    refine ⟨readsExpression_binary leftStated.reads rightStated.reads rightStated.starts weak strong
      accepts, starts, ?_, ?_⟩
    · simp only [Expression.leftRank, operatorRank_text]
      exact lt_min leftStated.strong least
    · simp only [Expression.rightRank, operatorRank_text]
      exact lt_min (Nat.zero_lt_of_lt least) rightStated.positive
  | .unary token operator operand => by
    intro legible valid
    have starts := startsOperand_of_legible _ legible
    simp only [Expression.legibleExpression, Bool.and_eq_true, decide_eq_true_eq] at legible
    simp only [Expression.Valid] at valid
    obtain ⟨⟨prefixed, inner⟩, strong⟩ := legible
    have stated := stated_of_legible names operand inner valid
    refine ⟨readsExpression_unary prefixed stated.reads stated.starts strong, starts,
      show Precedence.lowest.rank < topRank by decide, ?_⟩
    simp only [Expression.rightRank]
    exact lt_min (by decide) stated.positive
  | .group token inner => by
    intro legible valid
    have starts := startsOperand_of_legible _ legible
    simp only [Expression.legibleExpression] at legible
    simp only [Expression.Valid] at valid
    exact .of_ranks topRank (readsExpression_group (stated_of_legible names inner legible valid))
      starts rfl rfl (by decide)
  | .call token function arguments => by
    intro legible valid
    have starts := startsOperand_of_legible _ legible
    simp only [Expression.Valid] at valid
    have stated := fun legible => allStated_of_legible names arguments legible valid.2
    rcases function with ⟨_, name, _ | _, _⟩ | _
    case identifier.false =>
      simp only [Expression.legibleExpression, Bool.and_eq_true] at legible
      obtain ⟨⟨bare, kind⟩, given⟩ := legible
      exact .of_ranks Precedence.call.rank (readsExpression_call bare kind (stated given)) starts
        rfl rfl (by decide)
    all_goals simp [Expression.legibleExpression] at legible
  | .identifier token name false isReserved => by
    intro legible valid
    have starts := startsOperand_of_legible _ legible
    simp only [Expression.legibleExpression, Bool.and_eq_true, Bool.or_eq_true, bne_iff_ne]
      at legible
    obtain ⟨⟨bare, kind⟩, standalone⟩ := legible
    exact .of_ranks topRank
      (readsExpression_bare bare kind fun word => standalone.resolve_left fun other => other word)
      starts rfl rfl (by decide)
  | .namespaced token family name arguments => by
    intro legible valid
    have starts := startsOperand_of_legible _ legible
    cases arguments with
    | nil =>
      simp only [Expression.legibleExpression, Bool.and_eq_true, beq_iff_eq] at legible
      obtain ⟨⟨bare, known⟩, -⟩ := legible
      exact .of_ranks topRank (readsExpression_namespaced bare known) starts rfl rfl (by decide)
    | cons => simp [Expression.legibleExpression] at legible
  | .number .. | .boolean .. => fun _ valid =>
    have word : Expression.legibleArgument names _ := by simp [Expression.legibleArgument]
    (restores_of_legible names _ word valid).stated word rfl rfl rfl
  | .identifier _ _ true _ | .string .. | .address .. | .bracket .. | .interpolated .. | .list ..
  | .hash .. => fun legible valid =>
    have word : Expression.legibleArgument names _ := by
      simpa [Expression.legibleExpression, Expression.legibleArgument] using legible
    (restores_of_legible names _ word valid).stated word rfl rfl rfl
  | .element token array key => fun legible valid => by
    have word : (Expression.element token array key).legibleArgument names := by
      rcases array with ⟨_, _, _ | _, _⟩ | _
      case identifier.true =>
        simpa [Expression.legibleExpression, Expression.legibleArgument] using legible
      all_goals simp [Expression.legibleExpression] at legible
    exact (restores_of_legible names _ word valid).stated word rfl rfl rfl
  | .invalid .. | .computed .. | .invocation .. | .mapping .. | .handler .. | .stringOperation ..
  | .classCommand .. | .regsub .. | .substitution .. | .regex .. | .target .. => fun legible => by
    simp [Expression.legibleExpression] at legible
termination_by expression => (sizeOf expression, 1)

theorem allStated_of_legible (names : Names) : (expressions : List Expression) →
    legibleExpressions names expressions → AllValid expressions → StatedAll names expressions
  | [] => fun _ _ => .nil
  | expression :: rest => fun legible valid => by
    simp only [legibleExpressions, Bool.and_eq_true] at legible
    simp only [AllValid] at valid
    exact .cons (stated_of_legible names expression legible.1 valid.1)
      (allStated_of_legible _ rest legible.2 valid.2)
termination_by expressions => (sizeOf expressions, 0)

end

/-- Legible targets of loops are read back. -/
theorem readsLoop_of_legible {word : Expression} (legible : word.legibleLoop names)
    (valid : word.Valid) : ReadsLoop names word := by
  unfold Expression.legibleLoop at legible
  split at legible
  · simp only [Bool.and_eq_true] at legible
    exact readsLoop_raw legible.1.1 legible.1.2 legible.2
  · simp only [Bool.and_eq_true] at legible
    exact readsLoop_list legible.1 legible.2
  · exact readsLoop_word ((restores_of_legible names _ legible valid).argues legible) legible rfl
      (by simp)
  · exact readsLoop_word ((restores_of_legible names _ legible valid).argues legible) legible rfl
      (by simp)
  · exact readsLoop_word ((restores_of_legible names _ legible valid).argues legible) legible rfl
      (by simp)
  · simp at legible

end Parser

end IRule
