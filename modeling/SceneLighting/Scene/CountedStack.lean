/-!
# Counted stacks
-/

namespace SceneLighting

/-- A stack that counts what was put on it and what was taken off. -/
structure CountedStack (β : Type) where
  /-- The top comes first. -/
  items : List β
  pushes : Nat
  pops : Nat

namespace CountedStack

variable {β : Type}

def empty : CountedStack β :=
  ⟨[], 0, 0⟩

def top? (s : CountedStack β) : Option β :=
  s.items.head?

def push (s : CountedStack β) (item : β) : CountedStack β :=
  { s with items := item :: s.items, pushes := s.pushes + 1 }

/-- The stack without its top. Nothing is taken off an empty stack, and nothing counted. -/
def pop (s : CountedStack β) : CountedStack β :=
  match s.items with
  | []         => s
  | _ :: items => { s with items, pops := s.pops + 1 }

@[simp] theorem top?_push (s : CountedStack β) (item : β) : (s.push item).top? = some item :=
  rfl

@[simp] theorem items_pop_push (s : CountedStack β) (item : β) :
    (s.push item).pop.items = s.items :=
  rfl

end CountedStack

end SceneLighting
