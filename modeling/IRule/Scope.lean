/-!
# Scopes

A block is a scope. In one scope `node` excludes `pool`, and `HTTP::redirect`
excludes `HTTP::respond`: a declaration whose rival is present is refused and
leaves the scope as it was.
-/

namespace IRule

/-- A set of the commands that exclude one another. -/
structure Exclusives where
  node : Bool := false
  pool : Bool := false
  redirect : Bool := false
  respond : Bool := false
deriving DecidableEq, Repr, Inhabited

namespace Exclusives

/-- No command. -/
def empty : Exclusives := {}

/-- Commands in either set. -/
def union (first second : Exclusives) : Exclusives :=
  ⟨first.node || second.node, first.pool || second.pool, first.redirect || second.redirect,
    first.respond || second.respond⟩

/-- Commands in both sets. -/
def inter (first second : Exclusives) : Exclusives :=
  ⟨first.node && second.node, first.pool && second.pool, first.redirect && second.redirect,
    first.respond && second.respond⟩

/-- Bit set with `node`, `pool`, `HTTP::redirect` and `HTTP::respond` in bits 0 to 3. -/
def bits (set : Exclusives) : Nat :=
  set.node.toNat + 2 * set.pool.toNat + 4 * set.redirect.toNat + 8 * set.respond.toNat

/-- The set of a bit set; further bits are dropped. -/
def ofBits (bits : Nat) : Exclusives :=
  ⟨bits.testBit 0, bits.testBit 1, bits.testBit 2, bits.testBit 3⟩

/-- Commands excluded by the set. Of a pair that is in the set whole, the second
member is. -/
def rivals (set : Exclusives) : Exclusives :=
  { node := !set.node && set.pool
    pool := set.node
    redirect := !set.redirect && set.respond
    respond := set.redirect }

/-- Name of the command when the set has one member. -/
def commandName (set : Exclusives) : String :=
  if set = { node := true } then "node"
  else if set = { pool := true } then "pool"
  else if set = { redirect := true } then "HTTP::redirect"
  else if set = { respond := true } then "HTTP::respond"
  else "command"

end Exclusives

/-- A refused declaration. -/
structure Conflict where
  declared : Exclusives
  existing : Exclusives
deriving DecidableEq, Repr, Inhabited

namespace Conflict

/-- Message of the refusal. -/
def message (conflict : Conflict) : String :=
  "'" ++ conflict.declared.commandName ++ "' cannot be used in the same scope as '" ++
    conflict.existing.commandName ++ "'"

end Conflict

/-- The open scopes. The outermost one is never left. -/
structure Scopes where
  current : Exclusives := .empty
  /-- Enclosing scopes, innermost first. -/
  outer : List Exclusives := []
deriving DecidableEq, Repr, Inhabited

namespace Scopes

/-- Open a scope. -/
def enter (scopes : Scopes) : Scopes :=
  ⟨.empty, scopes.current :: scopes.outer⟩

/-- Close the innermost scope, unless it is the outermost one. -/
def leave (scopes : Scopes) : Scopes :=
  match scopes.outer with
  | [] => scopes
  | enclosing :: outer => ⟨enclosing, outer⟩

/-- Number of open scopes. -/
def depth (scopes : Scopes) : Nat :=
  scopes.outer.length + 1

/-- Declare commands in the innermost scope, unless a rival is there. -/
def declare (scopes : Scopes) (set : Exclusives) : Except Conflict Scopes :=
  let existing := scopes.current.inter set.rivals
  if existing = .empty then .ok { scopes with current := scopes.current.union set }
  else .error ⟨set, existing⟩

end Scopes

end IRule
