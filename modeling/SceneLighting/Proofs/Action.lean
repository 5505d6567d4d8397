import SceneLighting.Action
import Mathlib.Tactic.Simproc.ExistsAndEq
import Mathlib.Tactic.Lemma

/-!
# Reasoning about actions

An action keeps a relation if the states before and after it are related, whether it answers or
fails. A relation that is reflexive and transitive is kept by everything that is put together from
actions that keep it.
-/

namespace SceneLighting.Action

variable {σ τ β γ : Type}

/-! ### Runs -/

@[simp] lemma map_apply (f : β → γ) (act : Action σ β) (s : σ) :
    (f <$> act) s = ⟨(act s).result.map f, (act s).state, (act s).log⟩ := by
  rw [← bind_pure_comp, bind_apply]
  rcases act s with ⟨_ | b, t, log⟩ <;> simp [Except.map]

@[simp] lemma get_bind_apply (next : σ → Action σ β) (s : σ) : (get >>= next) s = next s s := by
  simp [bind_apply]

@[simp] lemma modify_bind_apply (f : σ → σ) (next : Unit → Action σ β) (s : σ) :
    (Action.modify f >>= next) s = next () (f s) := by
  simp [bind_apply]

lemma check_bind_apply (part : Part) (e : Except Fault β) (next : β → Action σ γ) (s : σ) :
    (Action.check part e >>= next) s =
      match e with
      | .ok b        => next b s
      | .error fault => ⟨.error fault, s, [.failed part fault]⟩ := by
  cases e <;> simp [bind_apply]

/-- An action fails, changes nothing and reports its fault alone. -/
def Fails (act : Action σ β) (s : σ) : Prop :=
  ∃ part fault, act s = ⟨.error fault, s, [.failed part fault]⟩

lemma Fails.state_eq {act : Action σ β} {s : σ} (h : Fails act s) : (act s).state = s := by
  obtain ⟨_, _, h⟩ := h
  rw [h]

/-! ### Kept relations -/

/-- The states before and after are related. -/
def Keeps (R : σ → σ → Prop) (act : Action σ β) : Prop :=
  ∀ s, R s (act s).state

section Keeps

variable {R : σ → σ → Prop} (refl : ∀ s, R s s) (trans : ∀ s t u, R s t → R t u → R s u)

include refl in
lemma Keeps.pure (b : β) : Keeps R (Pure.pure b) :=
  refl

include refl in
lemma Keeps.fail (part : Part) (fault : Fault) : Keeps R (fail part fault : Action σ β) :=
  refl

include refl in
lemma Keeps.check (part : Part) (e : Except Fault β) : Keeps R (Action.check part e) := by
  cases e
  · exact Keeps.fail refl part _
  · exact Keeps.pure refl _

include trans in
lemma Keeps.bind {act : Action σ β} {next : β → Action σ γ} (h : Keeps R act)
    (hnext : ∀ b, Keeps R (next b)) : Keeps R (act >>= next) := by
  intro s
  have hs := h s
  rw [bind_apply]
  rcases ho : act s with ⟨e | b, t, log⟩ <;> rw [ho] at hs
  · exact hs
  · exact trans _ _ _ hs (hnext b t)

include refl trans in
lemma Keeps.mapM {f : β → Action σ γ} {l : List β} (h : ∀ b ∈ l, Keeps R (f b)) :
    Keeps R (l.mapM f) := by
  induction l with
  | nil => exact Keeps.pure refl []
  | cons b l ih =>
    rw [List.mapM_cons]
    apply Keeps.bind trans (h b (by simp))
    intro c
    exact Keeps.bind trans (ih fun b' hb' => h b' (by simp [hb'])) fun cs => Keeps.pure refl _

include refl trans in
lemma Keeps.forM {f : β → Action σ PUnit} {l : List β} (h : ∀ b ∈ l, Keeps R (f b)) :
    Keeps R (l.forM f) := by
  induction l with
  | nil => exact Keeps.pure refl _
  | cons b l ih =>
    rw [List.forM_eq_forM, List.forM_cons]
    exact Keeps.bind trans (h b (by simp)) fun _ => ih fun b' hb' => h b' (by simp [hb'])

lemma Keeps.modify {f : σ → σ} (h : ∀ s, R s (f s)) : Keeps R (Action.modify f) :=
  h

/-- An action on a part of the state keeps what changing that part keeps. -/
lemma Keeps.on {Q : τ → τ → Prop} {part : σ → τ} {put : σ → τ → σ} {act : Action τ β}
    (h : Keeps Q act) (hput : ∀ s t, Q (part s) t → R s (put s t)) : Keeps R (on part put act) :=
  fun s => hput s _ (h (part s))

end Keeps

/-! ### Answers -/

lemma ok_of_map {r : Except Fault β} {f : β → γ} {c : γ} (h : r.map f = .ok c) :
    ∃ b, r = .ok b ∧ f b = c := by
  rcases r with e | b
  · simp [Except.map] at h
  · exact ⟨b, rfl, by simpa [Except.map] using h⟩

lemma exists_ok_of_map {r : Except Fault β} {f : β → γ} {c : γ} {P : β → Prop}
    (h : r.map f = .ok c) (hP : ∀ b, r = .ok b → P b) : ∃ b, r = .ok b ∧ f b = c ∧ P b := by
  obtain ⟨b, hb, hc⟩ := ok_of_map h
  exact ⟨b, hb, hc, hP b hb⟩

/-- An action answers `b` and leaves the state `t`. -/
def Answers (act : Action σ β) (s : σ) (b : β) (t : σ) : Prop :=
  (act s).result = .ok b ∧ (act s).state = t

section Answers

variable {s t u : σ} {b : β} {c : γ}

lemma answers_of_result {act : Action σ β} (h : (act s).result = .ok b) :
    Answers act s b (act s).state :=
  ⟨h, rfl⟩

lemma answers_of_eq {act : Action σ β} {log : List Event} (h : act s = ⟨.ok b, t, log⟩) :
    Answers act s b t := by
  rw [Answers, h]
  exact ⟨rfl, rfl⟩

@[simp] lemma answers_pure {b' : β} : Answers (pure b) s b' t ↔ b = b' ∧ s = t := by
  simp [Answers]

@[simp] lemma answers_fail {part : Part} {fault : Fault} :
    ¬Answers (Action.fail part fault) s b t := by
  simp [Answers]

@[simp] lemma answers_get : Answers Action.get s t u ↔ s = t ∧ s = u := by
  simp [Answers]

@[simp] lemma answers_modify {f : σ → σ} {i : Unit} :
    Answers (Action.modify f) s i t ↔ f s = t := by
  simp [Answers]

@[simp] lemma answers_bind {act : Action σ β} {next : β → Action σ γ} :
    Answers (act >>= next) s c u ↔ ∃ b t, Answers act s b t ∧ Answers (next b) t c u := by
  simp only [Answers, bind_apply]
  rcases act s with ⟨e | b, t, log⟩ <;> simp

@[simp] lemma answers_map {act : Action σ β} {f : β → γ} :
    Answers (f <$> act) s c t ↔ ∃ b, Answers act s b t ∧ f b = c := by
  simp [← bind_pure_comp]

lemma answers_on {part : σ → τ} {put : σ → τ → σ} {act : Action τ β} :
    Answers (on part put act) s b t ↔ ∃ x, Answers act (part s) b x ∧ put s x = t := by
  simp [Answers, on_apply]

lemma answers_mapM_append {f : β → Action σ γ} {l₁ l₂ : List β} {cs : List γ} :
    Answers ((l₁ ++ l₂).mapM f) s cs u ↔ ∃ cs₁ t cs₂, Answers (l₁.mapM f) s cs₁ t ∧
      Answers (l₂.mapM f) t cs₂ u ∧ cs₁ ++ cs₂ = cs := by
  simp only [List.mapM_append, answers_bind, answers_pure]
  constructor
  · rintro ⟨cs₁, t, h₁, cs₂, _, h₂, rfl, rfl⟩
    exact ⟨cs₁, t, cs₂, h₁, h₂, rfl⟩
  · rintro ⟨cs₁, t, cs₂, h₁, h₂, rfl⟩
    exact ⟨cs₁, t, h₁, cs₂, u, h₂, rfl, rfl⟩

lemma answers_mapM_cons {f : β → Action σ γ} {l : List β} {cs : List γ} :
    Answers ((b :: l).mapM f) s cs u ↔ ∃ c t cs', Answers (f b) s c t ∧
      Answers (l.mapM f) t cs' u ∧ c :: cs' = cs := by
  simp only [List.mapM_cons, answers_bind, answers_pure]
  constructor
  · rintro ⟨c, t, h₁, cs', _, h₂, rfl, rfl⟩
    exact ⟨c, t, cs', h₁, h₂, rfl⟩
  · rintro ⟨c, t, cs', h₁, h₂, rfl⟩
    exact ⟨c, t, h₁, cs', u, h₂, rfl, rfl⟩

/-- What an action keeps relates the states before and after an answer. -/
lemma Keeps.of_answers {R : σ → σ → Prop} {act : Action σ β} (h : Keeps R act)
    (hb : Answers act s b t) : R s t :=
  hb.2 ▸ h s

/-- When all of a list went well, each answer was given in a state on the way. -/
theorem exists_of_mapM {R : σ → σ → Prop} (refl : ∀ s, R s s)
    (trans : ∀ s t u, R s t → R t u → R s u) {f : β → Action σ γ} {l : List β}
    (h : ∀ b ∈ l, Keeps R (f b)) {cs : List γ} (hok : Answers (l.mapM f) s cs u) :
    ∀ b ∈ l, ∃ c ∈ cs, ∃ t t', R s t ∧ Answers (f b) t c t' := by
  induction l generalizing s cs with
  | nil => simp
  | cons b l ih =>
    obtain ⟨c, t, cs', hc, hcs, rfl⟩ := answers_mapM_cons.1 hok
    have hst := (h b (by simp)).of_answers hc
    intro b' hb'
    rcases List.mem_cons.1 hb' with rfl | hb'
    · exact ⟨c, by simp, s, t, refl s, hc⟩
    · obtain ⟨c', hmem, x, x', hx, hc'⟩ := ih (fun b hb => h b (by simp [hb])) hcs b' hb'
      exact ⟨c', by simp [hmem], x, x', trans _ _ _ hst hx, hc'⟩

/-- When all of a list went well, each answer was given to one of the list. -/
theorem exists_of_mem_mapM {R : σ → σ → Prop} (refl : ∀ s, R s s)
    (trans : ∀ s t u, R s t → R t u → R s u) {f : β → Action σ γ} {l : List β}
    (h : ∀ b ∈ l, Keeps R (f b)) {cs : List γ} (hok : Answers (l.mapM f) s cs u) :
    ∀ c ∈ cs, ∃ b ∈ l, ∃ t t', R s t ∧ Answers (f b) t c t' := by
  induction l generalizing s cs with
  | nil =>
    obtain ⟨rfl, -⟩ := answers_pure.1 hok
    simp
  | cons b l ih =>
    obtain ⟨c, t, cs', hc, hcs, rfl⟩ := answers_mapM_cons.1 hok
    have hst := (h b (by simp)).of_answers hc
    intro c' hc'
    rcases List.mem_cons.1 hc' with rfl | hc'
    · exact ⟨b, by simp, s, t, refl s, hc⟩
    · obtain ⟨b', hmem, x, x', hx, hb'⟩ := ih (fun b hb => h b (by simp [hb])) hcs c' hc'
      exact ⟨b', by simp [hmem], x, x', trans _ _ _ hst hx, hb'⟩

/-- What comes after an action may go by what the action can answer. -/
lemma bind_congr_of_answers {act : Action σ β} {next next' : β → Action σ γ}
    (h : ∀ b s t, Answers act s b t → next b = next' b) : act >>= next = act >>= next' := by
  funext s
  rw [bind_apply, bind_apply]
  rcases ho : act s with ⟨fault | b, t, log⟩
  · rfl
  · have hb : next b = next' b := h b s t (answers_of_eq ho)
    simp only [hb]

end Answers

/-! ### Faults -/

/-- What an action fails with, if it fails. -/
def fault? (act : Action σ β) (s : σ) : Option Fault :=
  match (act s).result with
  | .ok _        => none
  | .error fault => some fault

section Faults

variable {s t : σ} {fault : Fault}

lemma fault?_eq_some {act : Action σ β} :
    act.fault? s = some fault ↔ (act s).result = .error fault := by
  rw [fault?]
  split <;> simp_all

lemma fault?_eq_none {act : Action σ β} : act.fault? s = none ↔ ∃ b t, act.Answers s b t := by
  rw [fault?]
  split <;> simp_all [Answers]

@[simp] lemma fault?_pure (b : β) (s : σ) : (pure b : Action σ β).fault? s = none :=
  rfl

@[simp] lemma fault?_on (part : σ → τ) (put : σ → τ → σ) (act : Action τ β) (s : σ) :
    (on part put act).fault? s = act.fault? (part s) :=
  rfl

@[simp] lemma fault?_get_bind (next : σ → Action σ γ) (s : σ) :
    (Action.get >>= next).fault? s = (next s).fault? s := by
  rw [fault?, get_bind_apply, fault?]

@[simp] lemma fault?_modify_bind (f : σ → σ) (next : Unit → Action σ γ) (s : σ) :
    (Action.modify f >>= next).fault? s = (next ()).fault? (f s) := by
  rw [fault?, modify_bind_apply, fault?]

/-- One action after another fails as the first does, and else as the second. -/
lemma fault?_bind {act : Action σ β} {next : β → Action σ γ} (next? : Option Fault)
    (h : ∀ b t, act.Answers s b t → (next b).fault? t = next?) :
    (act >>= next).fault? s = (act.fault? s).or next? := by
  rw [fault?, fault?, bind_apply]
  rcases ho : act s with ⟨fault | b, t, log⟩
  · rfl
  · have hnext := h b t (answers_of_eq ho)
    rwa [Option.none_or]

@[simp] lemma fault?_bind_pure (act : Action σ β) (f : β → γ) (s : σ) :
    (act >>= fun b => pure (f b)).fault? s = act.fault? s := by
  rw [fault?_bind none fun _ _ _ => fault?_pure _ _, Option.or_none]

/-- A list fails as the first that fails, when nothing that goes well changes what fails. -/
theorem fault?_mapM {R : σ → σ → Prop} (refl : ∀ s, R s s)
    (trans : ∀ s t u, R s t → R t u → R s u) {f : β → Action σ γ} {l : List β}
    (h : ∀ b ∈ l, Keeps R (f b)) {each? : β → Option Fault}
    (heach : ∀ b ∈ l, ∀ t, R s t → (f b).fault? t = each? b) :
    (l.mapM f).fault? s = l.findSome? each? := by
  induction l generalizing s with
  | nil => rfl
  | cons b l ih =>
    rw [List.mapM_cons, fault?_bind (l.findSome? each?), heach b (by simp) s (refl s)]
    · cases hb : each? b <;> simp [hb]
    · intro c t hc
      have hst := (h b (by simp)).of_answers hc
      rw [fault?_bind_pure]
      exact ih (fun b' hb' => h b' (by simp [hb'])) fun b' hb' u htu =>
        heach b' (by simp [hb']) u (trans _ _ _ hst htu)

/-- A list that fails fails at one of its members, after all went well with those before. -/
theorem exists_of_mapM_error {f : β → Action σ γ} {l : List β}
    (h : (l.mapM f s).result = .error fault) :
    ∃ done b rest cs t, l = done ++ b :: rest ∧ Answers (done.mapM f) s cs t ∧
      (f b t).result = .error fault ∧ (l.mapM f s).state = (f b t).state := by
  induction l generalizing s with
  | nil => simp at h
  | cons b l ih =>
    rw [List.mapM_cons, bind_apply] at h ⊢
    rcases ho : f b s with ⟨fault' | c, t, log⟩
    · obtain rfl : fault' = fault := by simpa [ho] using h
      exact ⟨[], b, l, [], s, rfl, answers_pure.2 ⟨rfl, rfl⟩, by rw [ho], by rw [ho]⟩
    · rw [ho] at h
      dsimp only at h ⊢
      have hrest : (l.mapM f t).result = .error fault := by
        rw [← fault?_eq_some, ← fault?_bind_pure _ (c :: ·), fault?_eq_some]
        exact h
      obtain ⟨done, b', rest, cs, u, rfl, hdone, hb', hstate⟩ := ih hrest
      refine ⟨b :: done, b', rest, c :: cs, u, rfl, ?_, hb', ?_⟩
      · exact answers_mapM_cons.2 ⟨c, t, cs, answers_of_eq ho, hdone, rfl⟩
      · rw [← hstate, bind_apply]
        rcases (done ++ b' :: rest).mapM f t with ⟨_ | _, _, _⟩ <;> rfl

end Faults

/-! ### Reports -/

/-- All events that an action reports are of one kind. -/
def Reports (P : Event → Prop) (act : Action σ β) : Prop :=
  ∀ s, ∀ event ∈ (act s).log, P event

section Reports

variable {P : Event → Prop}

lemma Reports.pure (b : β) : Reports P (Pure.pure b : Action σ β) :=
  fun s event h => by simp at h

lemma Reports.fail {part : Part} {fault : Fault} (h : P (.failed part fault)) :
    Reports P (fail part fault : Action σ β) := by
  intro s event he
  obtain rfl : event = .failed part fault := by simpa using he
  exact h

lemma Reports.bind {act : Action σ β} {next : β → Action σ γ} (h : Reports P act)
    (hnext : ∀ b, Reports P (next b)) : Reports P (act >>= next) := by
  intro s event he
  have hs := h s
  rw [bind_apply] at he
  rcases ho : act s with ⟨fault | b, t, log⟩ <;> rw [ho] at hs he
  · exact hs event he
  · rcases List.mem_append.1 he with he | he
    · exact hs event he
    · exact hnext b t event he

end Reports

/-! ### What does not show -/

/-- The answers are the same, or the faults, and the states are related. -/
def Agree (R : σ → σ → Prop) (o o' : Outcome σ β) : Prop :=
  o'.result = o.result ∧ R o.state o'.state

/-- From related states an action comes to outcomes that agree. -/
def Respects (R : σ → σ → Prop) (act : Action σ β) : Prop :=
  ∀ s s', R s s' → Agree R (act s) (act s')

section Respects

variable {R : σ → σ → Prop}

/-- After the same check what follows it is to be compared. -/
lemma Agree.check_bind {part : Part} {e e' : Except Fault β} {next next' : β → Action σ γ}
    {s s' : σ} (he : e' = e) (h : R s s')
    (hnext : ∀ b, e = .ok b → Agree R (next b s) (next' b s')) :
    Agree R ((check part e >>= next) s) ((check part e' >>= next') s') := by
  subst he
  rw [check_bind_apply, check_bind_apply]
  cases e' with
  | error fault => exact ⟨rfl, h⟩
  | ok b => exact hnext b rfl

lemma Respects.pure (b : β) : Respects R (Pure.pure b : Action σ β) :=
  fun _ _ h => ⟨rfl, h⟩

lemma Respects.fail (part : Part) (fault : Fault) :
    Respects R (fail part fault : Action σ β) :=
  fun _ _ h => ⟨rfl, h⟩

lemma Respects.bind {act : Action σ β} {next : β → Action σ γ} (h : Respects R act)
    (hnext : ∀ b, Respects R (next b)) : Respects R (act >>= next) := by
  intro s s' hs
  obtain ⟨hresult, hstate⟩ := h s s' hs
  rw [bind_apply, bind_apply]
  rcases ho : act s with ⟨fault | b, t, log⟩ <;>
    rcases ho' : act s' with ⟨fault' | b', t', log'⟩ <;> rw [ho, ho'] at hresult hstate
  · obtain rfl : fault' = fault := by simpa using hresult
    exact ⟨rfl, hstate⟩
  · cases hresult
  · cases hresult
  · obtain rfl : b' = b := by simpa using hresult
    exact hnext b' t t' hstate

lemma Respects.forM {f : β → Action σ PUnit} {l : List β} (h : ∀ b ∈ l, Respects R (f b)) :
    Respects R (l.forM f) := by
  induction l with
  | nil => exact .pure _
  | cons b l ih =>
    rw [List.forM_eq_forM, List.forM_cons]
    exact .bind (h b (by simp)) fun _ => ih fun b' hb' => h b' (by simp [hb'])

lemma Respects.on {Q : τ → τ → Prop} {part : σ → τ} {put : σ → τ → σ} {act : Action τ β}
    (h : Respects Q act) (hpart : ∀ s s', R s s' → Q (part s) (part s'))
    (hput : ∀ s s' t t', R s s' → Q t t' → R (put s t) (put s' t')) :
    Respects R (on part put act) := by
  intro s s' hs
  obtain ⟨hresult, hstate⟩ := h _ _ (hpart s s' hs)
  exact ⟨hresult, hput _ _ _ _ hs hstate⟩

end Respects

end SceneLighting.Action
