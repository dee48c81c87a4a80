import ThreatOrbit.Lib.Python

/-
  A value that later ones take the place of while it is only
  a stand-in, and a mapping one of whose entries is settled
  so, entry after entry.
-/

---- Stand-Ins

namespace Lib

section

variable {α : Type}

/- Each value in turn replaces the one before while that one
is loose. -/
def overwrite (loose : α → Bool) : α → List α → α
| x, [] => x
| x, v :: rest =>
    overwrite loose (if loose x then v else x) rest

end

---- One Entry Of A Mapping

variable {α β ε : Type}
variable {step :
  List (Str × α) → β → Except ε (List (Str × α))}

end Lib
