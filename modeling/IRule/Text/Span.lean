/-!
# Byte spans

Where a piece of text stands in its source. Offsets count UTF-8 bytes; lines
are carried by tokens separately.
-/

namespace IRule

/-- A half-open range of byte offsets. -/
structure Span where
  start : Nat
  stop : Nat
deriving DecidableEq, Repr, Inhabited

namespace Span

/-- The span of tokens that stand nowhere in the source. -/
def nowhere : Span := ⟨0, 0⟩

/-- The smallest span that contains both. -/
def merge (first second : Span) : Span :=
  ⟨min first.start second.start, max first.stop second.stop⟩

/-- Written form, `start..stop`. -/
def text (span : Span) : String :=
  toString span.start ++ ".." ++ toString span.stop

end Span

end IRule
