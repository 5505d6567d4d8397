import SceneLighting.Event

/-!
# Actions

An action changes a state, reports events and either answers or fails. The changes made before a
failure stay, and so do the reports.
-/

namespace SceneLighting

structure Outcome (σ β : Type) where
  result : Except Fault β
  state : σ
  /-- The events of this action alone, in order. -/
  log : List Event

def Action (σ β : Type) : Type :=
  σ → Outcome σ β

namespace Action

variable {σ τ β γ : Type}

instance : Monad (Action σ) where
  pure b := fun s => ⟨.ok b, s, []⟩
  bind act next := fun s =>
    match act s with
    | ⟨.ok b, s, log⟩    => let o := next b s; { o with log := log ++ o.log }
    | ⟨.error e, s, log⟩ => ⟨.error e, s, log⟩

/-- Answer with the state. -/
def get : Action σ σ :=
  fun s => ⟨.ok s, s, []⟩

def modify (f : σ → σ) : Action σ Unit :=
  fun s => ⟨.ok (), f s, []⟩

def emit (event : Event) : Action σ Unit :=
  fun s => ⟨.ok (), s, [event]⟩

/-- Fail, and report it. -/
def fail (part : Part) (fault : Fault) : Action σ β :=
  fun s => ⟨.error fault, s, [.failed part fault]⟩

/-- Answer what a check answers; its failure is reported. -/
def check (part : Part) : Except Fault β → Action σ β
  | .ok b        => pure b
  | .error fault => fail part fault

/-- Run an action on a part of the state. -/
def on (part : σ → τ) (put : σ → τ → σ) (act : Action τ β) : Action σ β :=
  fun s => let o := act (part s); { o with state := put s o.state }

@[simp] theorem pure_apply (b : β) (s : σ) : (pure b : Action σ β) s = ⟨.ok b, s, []⟩ :=
  rfl

theorem bind_apply (act : Action σ β) (next : β → Action σ γ) (s : σ) :
    (act >>= next) s =
      match act s with
      | ⟨.ok b, s, log⟩    => { next b s with log := log ++ (next b s).log }
      | ⟨.error e, s, log⟩ => ⟨.error e, s, log⟩ :=
  rfl

@[simp] theorem get_apply (s : σ) : (get : Action σ σ) s = ⟨.ok s, s, []⟩ :=
  rfl

@[simp] theorem modify_apply (f : σ → σ) (s : σ) : modify f s = ⟨.ok (), f s, []⟩ :=
  rfl

@[simp] theorem emit_apply (event : Event) (s : σ) : emit event s = ⟨.ok (), s, [event]⟩ :=
  rfl

@[simp] theorem fail_apply (part : Part) (fault : Fault) (s : σ) :
    (fail part fault : Action σ β) s = ⟨.error fault, s, [.failed part fault]⟩ :=
  rfl

@[simp] theorem check_ok (part : Part) (b : β) :
    (check part (.ok b) : Action σ β) = pure b :=
  rfl

@[simp] theorem check_error (part : Part) (fault : Fault) :
    (check part (.error fault) : Action σ β) = fail part fault :=
  rfl

theorem on_apply (part : σ → τ) (put : σ → τ → σ) (act : Action τ β) (s : σ) :
    on part put act s = { act (part s) with state := put s (act (part s)).state } :=
  rfl

instance : LawfulMonad (Action σ) := LawfulMonad.mk' _
  (fun act => by
    funext s
    show (act >>= pure) s = act s
    rw [bind_apply]
    rcases act s with ⟨b | e, s, log⟩ <;> simp)
  (fun b next => by
    funext s
    simp [bind_apply])
  (fun act next last => by
    funext s
    simp only [bind_apply]
    rcases act s with ⟨_ | b, s, log⟩
    · rfl
    · simp only
      rcases next b s with ⟨_ | c, s, log'⟩ <;> simp [List.append_assoc])

end Action

end SceneLighting
