import IRule.Proofs.Parser.Command
import IRule.Proofs.Script.Targets

/-!
# Rearranged words

The parser joins text, embeds brackets in words and pairs the elements of a list after it
has read them. None of this makes up a node that assigns, calls or has flags: such nodes
stand in the outcome only if they were read.
-/

namespace IRule

/-- Whether a node stands for no command, no call and no assignment of its own. -/
def Node.isPlain : Node → Bool
  | .expression (.invocation ..) | .expression (.call ..) | .expression (.regsub ..)
  | .statement (.set ..) | .statement (.foreach ..) => false
  | _ => true

/-- Plain nodes assign nothing. -/
theorem Node.targets_of_isPlain {node : Node} (plain : node.isPlain) : node.targets = [] := by
  unfold targets
  split <;> first | rfl | simp [isPlain] at plain

/-- What stands in the second list stands in the first, plain nodes aside. -/
def Rearranges (before after : List Node) : Prop :=
  ∀ node ∈ after, node.isPlain = false → node ∈ before

namespace Rearranges

variable {before after : List Node}

theorem of_subset (inside : after ⊆ before) : Rearranges before after :=
  fun _ mem _ => inside mem

/-- A plain node may be added. -/
theorem cons {node : Node} (plain : node.isPlain) (rest : Rearranges before after) :
    Rearranges before (node :: after) := by
  intro other mem marked
  rcases List.mem_cons.1 mem with rfl | mem
  · simp [plain] at marked
  · exact rest other mem marked

/-- What is rearranged in two parts is rearranged as a whole. -/
theorem append {earlier later : List Node} (first : Rearranges before earlier)
    (second : Rearranges after later) : Rearranges (before ++ after) (earlier ++ later) := by
  intro node mem marked
  rcases List.mem_append.1 mem with mem | mem
  · exact List.mem_append_left _ (first node mem marked)
  · exact List.mem_append_right _ (second node mem marked)

/-- Nothing is assigned that was not before. -/
theorem targetsIn_subset (same : Rearranges before after) : targetsIn after ⊆ targetsIn before := by
  intro name assigned
  obtain ⟨node, mem, own⟩ := List.mem_flatMap.1 assigned
  cases plain : node.isPlain with
  | true =>
    rw [Node.targets_of_isPlain plain] at own
    simp at own
  | false => exact List.mem_flatMap.2 ⟨node, same node mem plain, own⟩

end Rearranges

namespace Parser

/-! ## Texts and words -/

theorem rearranges_appendText (token : Token) (parts : List Expression) (text : String) :
    Rearranges (nodesOf parts) (nodesOf (appendText token parts text)) := by
  have added (before : List Node) (token : Token) (text : String) :
      Rearranges before (nodesOf [.string token text]) := by
    simpa using .cons rfl (.of_subset (List.nil_subset before))
  unfold appendText
  split
  case h_1 first before last =>
    obtain ⟨front, rfl⟩ := List.getLast?_eq_some_iff.1 last
    have front : Rearranges (nodesOf front) (nodesOf front) := .of_subset (List.Subset.refl _)
    simpa using front.append (added (nodesOf [.string first before]) first (before ++ text))
  case h_2 =>
    have parts : Rearranges (nodesOf parts) (nodesOf parts) := .of_subset (List.Subset.refl _)
    simpa using parts.append (added [] token text)

theorem rearranges_textPart (state : State) (run : Option (Token × Span)) :
    Rearranges [] (nodesOf (textPart state run)) := by
  cases run with
  | none => exact .of_subset (List.Subset.refl _)
  | some run => simpa [textPart] using .cons rfl (.of_subset (List.Subset.refl _))

theorem rearranges_embedded (value : Expression) :
    Rearranges value.nodes (embedded value).nodes := by
  cases value with
  | bracket token commands =>
    simpa [embedded] using .cons rfl (.of_subset (List.subset_cons_self _ _))
  | _ => exact .of_subset (List.Subset.refl _)

/-- The parts of a word are made of its pieces. -/
theorem rearranges_wordParts (state : State) (run : Option (Token × Span))
    (all : List (Expression × Span)) :
    Rearranges (nodesOf (all.map Prod.fst)) (nodesOf (wordParts state run all)) := by
  fun_induction wordParts state run all with
  | case1 run => exact rearranges_textPart state run
  | case2 next span later _ token before ih | case3 next span later _ ih =>
    intro node mem marked
    simpa using .inr (ih node mem marked)
  | case4 run next span later _ ih =>
    have parts := (rearranges_textPart state run).append ((rearranges_embedded next).append ih)
    simpa using parts

/-! ## Pairs -/

theorem pairNodes_inPairs_subset (elements : List Expression) :
    pairNodes (inPairs elements) ⊆ nodesOf elements := by
  fun_induction inPairs elements with
  | case1 first second later ih =>
    intro node mem
    simp only [pairNodes, nodesOf, List.mem_append] at mem ⊢
    exact mem.imp_right (Or.imp_right (@ih node))
  | case2 => simp

/-- A list that is taken as pairs keeps its elements. -/
theorem rearranges_pairFirstList (given : List Expression) :
    Rearranges (nodesOf given) (nodesOf (pairFirstList given)) := by
  fun_induction pairFirstList given with
  | case1 | case3 => exact .of_subset (List.Subset.refl _)
  | case2 token elements later even =>
    have pairs : Rearranges (Expression.list token elements).nodes
        (Expression.mapping token (inPairs elements)).nodes := by
      simpa using .cons rfl (.of_subset
        (List.subset_cons_of_subset _ (pairNodes_inPairs_subset elements)))
    simpa only [nodesOf] using pairs.append (.of_subset (List.Subset.refl _))
  | case4 argument later _ ih =>
    have first : Rearranges argument.nodes argument.nodes := .of_subset (List.Subset.refl _)
    simpa only [nodesOf] using first.append ih

end Parser

end IRule
