import EsilLowering.Value

/-! # Temporaries

Temporaries are handed out with increasing indices from one on, and none is handed out twice. -/

namespace EsilLowering

/-- The temporaries handed out so far: the index of the last one, zero if there is none. -/
structure Temporaries where
  last : Nat := 0
  deriving DecidableEq, Repr

namespace Temporaries

/-- The next temporary, and the temporaries once it is handed out. -/
def next (temporaries : Temporaries) : Value × Temporaries :=
  let index := temporaries.last + 1
  (.temporary index, ⟨index⟩)

/-- The next `count` temporaries, each with its index. -/
def take (temporaries : Temporaries) : Nat → List (Value × Nat)
  | 0 => []
  | count + 1 =>
    let (value, after) := temporaries.next
    (value, after.last) :: after.take count

end Temporaries
end EsilLowering
