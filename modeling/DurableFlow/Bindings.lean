/-!
# Bindings of keys to values

Each key is bound at most once; binding it again replaces what it was bound to.
-/

namespace DurableFlow

structure Bindings (κ ν : Type) where
  list : List (κ × ν)

namespace Bindings

variable {κ ν : Type} [DecidableEq κ]

def empty : Bindings κ ν := ⟨[]⟩

def get? (m : Bindings κ ν) (k : κ) : Option ν := (m.list.find? (·.1 = k)).map (·.2)

def erase (m : Bindings κ ν) (k : κ) : Bindings κ ν := ⟨m.list.filter (·.1 ≠ k)⟩

def set (m : Bindings κ ν) (k : κ) (v : ν) : Bindings κ ν := ⟨(m.erase k).list ++ [(k, v)]⟩

def keys (m : Bindings κ ν) : List κ := m.list.map (·.1)

def size (m : Bindings κ ν) : Nat := m.list.length

end Bindings

end DurableFlow
