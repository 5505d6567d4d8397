import SceneLighting.Scene.Node
import Mathlib.Data.List.Nodup
import Mathlib.Tactic.Lemma

/-!
# The shape of a scene

The links between nodes, what cannot have children and who owns which manager are all that a scene
must keep in order. They are collected in the shape of a node; matrices, lights, bounds and
selectors are left out. Shapes form a tree if the links up and down agree, and adding a leaf or
taking away a whole subtree leaves a tree.
-/

namespace SceneLighting

/-- What a node contributes to the order of a scene. -/
@[ext] structure Shape where
  parent : Option NodeKey
  children : List NodeKey
  isDrawable : Bool
  /-- The manager that the node owns. -/
  owned : Option ManagerKey

namespace Node

variable {α : Type}

def owned (node : Node α) : Option ManagerKey :=
  match node.kind with
  | .manager manager => some manager
  | _                => none

def shape (node : Node α) : Shape :=
  ⟨node.parent, node.children, node.isDrawable, node.owned⟩

end Node

namespace Shape

/-- Links down lead from one level to the next. -/
def IsLevel (shapes : NodeKey → Option Shape) (level : NodeKey → Nat) : Prop :=
  ∀ {key s c}, shapes key = some s → c ∈ s.children → level c = level key + 1

/-- The shapes of nodes form a tree below `root`. -/
structure IsTree (shapes : NodeKey → Option Shape) (root : NodeKey) : Prop where
  root_parent : ∃ s, shapes root = some s ∧ s.parent = none
  up : ∀ {key s}, shapes key = some s → key ≠ root →
    ∃ p t, s.parent = some p ∧ shapes p = some t ∧ key ∈ t.children
  down : ∀ {key s c}, shapes key = some s → c ∈ s.children →
    ∃ t, shapes c = some t ∧ t.parent = some key
  nodup : ∀ {key s}, shapes key = some s → s.children.Nodup
  drawable : ∀ {key s}, shapes key = some s → s.isDrawable → s.children = []
  /-- There are finitely many levels, so that links lead round in no circle. -/
  levels : ∃ (level : NodeKey → Nat) (last : Nat), IsLevel shapes level ∧
    ∀ {key s}, shapes key = some s → level key ≤ last

/-- Every manager that is there is owned by exactly one node, and no other is owned. -/
structure OwnsManagers (shapes : NodeKey → Option Shape) (live : ManagerKey → Prop) : Prop where
  owned : ∀ {key s m}, shapes key = some s → s.owned = some m → live m
  unique : ∀ {key key' s s' m}, shapes key = some s → shapes key' = some s' →
    s.owned = some m → s'.owned = some m → key = key'
  owner : ∀ {m}, live m → ∃ key s, shapes key = some s ∧ s.owned = some m

variable {shapes : NodeKey → Option Shape} {root : NodeKey}

/-! ### Above and below -/

/-- A node is a child of one node only. -/
lemma IsTree.eq_of_mem_children (h : IsTree shapes root) {key key' c : NodeKey} {s s' : Shape}
    (hs : shapes key = some s) (hs' : shapes key' = some s') (hc : c ∈ s.children)
    (hc' : c ∈ s'.children) : key = key' := by
  obtain ⟨t, ht, hp⟩ := h.down hs hc
  obtain ⟨t', ht', hp'⟩ := h.down hs' hc'
  obtain rfl : t = t' := by simpa [ht] using ht'
  simpa [hp] using hp'

/-- Links lead down from `a`, in any number of steps. -/
inductive Above (shapes : NodeKey → Option Shape) (a : NodeKey) : NodeKey → Prop where
  | refl : Above shapes a a
  | step {key c : NodeKey} {s : Shape} (above : Above shapes a key) (hs : shapes key = some s)
      (hc : c ∈ s.children) : Above shapes a c

lemma Above.trans {a b c : NodeKey} (hab : Above shapes a b) (hbc : Above shapes b c) :
    Above shapes a c := by
  induction hbc with
  | refl => exact hab
  | step _ hs hc ih => exact .step ih hs hc

/-- All nodes are below the root. -/
theorem IsTree.above_root (h : IsTree shapes root) {key : NodeKey} {s : Shape}
    (hs : shapes key = some s) : Above shapes root key := by
  obtain ⟨level, -, hl, -⟩ := h.levels
  induction hn : level key using Nat.strongRecOn generalizing key s with
  | ind n ih =>
    by_cases hroot : key = root
    · exact hroot ▸ .refl
    · obtain ⟨p, t, -, ht, hc⟩ := h.up hs hroot
      have hlt : level p < n := by
        rw [← hn, hl ht hc]
        exact Nat.lt_succ_self _
      exact .step (ih _ hlt ht rfl) ht hc

section Levels

variable {level : NodeKey → Nat} (hl : IsLevel shapes level)

include hl

lemma Above.level_le {a key : NodeKey} (h : Above shapes a key) : level a ≤ level key := by
  induction h with
  | refl => exact Nat.le_refl _
  | step _ hs hc ih => exact hl hs hc ▸ Nat.le_succ_of_le ih

/-- Of two nodes on one level only one is above a given node. -/
lemma Above.eq_of_level_eq (h : IsTree shapes root) {a b key : NodeKey}
    (ha : Above shapes a key) (hb : Above shapes b key) (hab : level a = level b) : a = b := by
  induction ha with
  | refl =>
    cases hb with
    | refl => rfl
    | step hb hs hc =>
      have := hb.level_le hl
      have := hl hs hc
      omega
  | step ha hs hc ih =>
    cases hb with
    | refl =>
      have := ha.level_le hl
      have := hl hs hc
      omega
    | step hb hs' hc' =>
      obtain rfl := h.eq_of_mem_children hs hs' hc hc'
      exact ih hb

end Levels

/-- Different nodes of one level, however levels are counted. -/
structure Abreast (shapes : NodeKey → Option Shape) (keys : List NodeKey) : Prop where
  nodup : keys.Nodup
  isSome : ∀ {key}, key ∈ keys → (shapes key).isSome
  level : ∀ {level}, IsLevel shapes level → ∃ n, ∀ key ∈ keys, level key = n

lemma abreast_single {key : NodeKey} (h : (shapes key).isSome) : Abreast shapes [key] where
  nodup := List.nodup_singleton key
  isSome hk := List.mem_singleton.1 hk ▸ h
  level _ := ⟨_, fun _ hk => congrArg _ (List.mem_singleton.1 hk)⟩

lemma IsTree.abreast_children (h : IsTree shapes root) {key : NodeKey} {s : Shape}
    (hs : shapes key = some s) : Abreast shapes s.children where
  nodup := h.nodup hs
  isSome hc := by
    obtain ⟨t, ht, -⟩ := h.down hs hc
    simp [ht]
  level hl := ⟨_, fun _ hc => hl hs hc⟩

/-! ### One node -/

/-- A root alone. -/
def single (root : NodeKey) : NodeKey → Option Shape := fun key =>
  if key = root then some ⟨none, [], false, none⟩ else none

lemma single_eq_some {key : NodeKey} {s : Shape} :
    single root key = some s ↔ key = root ∧ s = ⟨none, [], false, none⟩ := by
  by_cases hk : key = root <;> simp [single, hk, eq_comm]

theorem isTree_single (root : NodeKey) : IsTree (single root) root where
  root_parent := ⟨_, single_eq_some.2 ⟨rfl, rfl⟩, rfl⟩
  up hs hroot := absurd (single_eq_some.1 hs).1 hroot
  down hs hc := by simp [(single_eq_some.1 hs).2] at hc
  nodup hs := by simp [(single_eq_some.1 hs).2]
  drawable hs _ := by simp [(single_eq_some.1 hs).2]
  levels := by
    refine ⟨fun _ => 0, 0, fun hs hc => ?_, fun _ => Nat.le_refl _⟩
    simp [(single_eq_some.1 hs).2] at hc

theorem ownsManagers_single {live : ManagerKey → Prop} (h : ∀ m, ¬live m) :
    OwnsManagers (single root) live where
  owned hs hm := by simp [(single_eq_some.1 hs).2] at hm
  unique hs hs' _ _ := (single_eq_some.1 hs).1.trans (single_eq_some.1 hs').1.symm
  owner hm := absurd hm (h _)

/-! ### A new leaf -/

section WithLeaf

/-- The shape of the node `key` when `parent` has got `new` as its last child. -/
def adopting (parent new key : NodeKey) (s : Shape) : Shape :=
  if key = parent then { s with children := s.children ++ [new] } else s

variable {parent new key : NodeKey} {s leaf : Shape}

@[simp] lemma parent_adopting : (s.adopting parent new key).parent = s.parent := by
  rw [adopting]
  split <;> rfl

@[simp] lemma isDrawable_adopting :
    (s.adopting parent new key).isDrawable = s.isDrawable := by
  rw [adopting]
  split <;> rfl

@[simp] lemma owned_adopting : (s.adopting parent new key).owned = s.owned := by
  rw [adopting]
  split <;> rfl

@[simp] lemma mem_children_adopting {c : NodeKey} :
    c ∈ (s.adopting parent new key).children ↔ c ∈ s.children ∨ key = parent ∧ c = new := by
  rw [adopting]
  split <;> simp [*]

/-- The shapes with one more leaf, `leaf` under the key `new`, as the last child of `parent`. -/
def withLeaf (shapes : NodeKey → Option Shape) (new parent : NodeKey) (leaf : Shape) :
    NodeKey → Option Shape := fun key =>
  if key = new then some leaf else (shapes key).map (adopting parent new key)

lemma withLeaf_new : withLeaf shapes new parent leaf new = some leaf := by
  simp [withLeaf]

lemma withLeaf_old (hnew : shapes new = none) (hs : shapes key = some s) :
    withLeaf shapes new parent leaf key = some (s.adopting parent new key) := by
  have hkn : key ≠ new := by
    rintro rfl
    simp [hnew] at hs
  simp [withLeaf, hkn, hs]

/-- The new leaf and the old nodes are all there is. -/
lemma of_withLeaf {t : Shape} (ht : withLeaf shapes new parent leaf key = some t) :
    key = new ∧ t = leaf ∨
      key ≠ new ∧ ∃ s, shapes key = some s ∧ t = s.adopting parent new key := by
  by_cases hkn : key = new
  · simp only [withLeaf, hkn, if_true, Option.some.injEq] at ht
    exact Or.inl ⟨hkn, ht.symm⟩
  · simp only [withLeaf, if_neg hkn, Option.map_eq_some_iff] at ht
    obtain ⟨s, hs, rfl⟩ := ht
    exact Or.inr ⟨hkn, s, hs, rfl⟩

theorem IsTree.withLeaf (h : IsTree shapes root) (hnew : shapes new = none)
    (hparent : shapes parent = some s) (hs : s.isDrawable = false)
    (hup : leaf.parent = some parent) (hdown : leaf.children = []) :
    IsTree (withLeaf shapes new parent leaf) root := by
  have absent : ∀ {key t}, shapes key = some t → new ∉ t.children := fun ht hc => by
    obtain ⟨u, hu, -⟩ := h.down ht hc
    simp [hnew] at hu
  constructor
  case root_parent =>
    obtain ⟨t, ht, hp⟩ := h.root_parent
    exact ⟨_, withLeaf_old hnew ht, by simpa using hp⟩
  case up =>
    intro key t hk hroot
    obtain ⟨rfl, rfl⟩ | ⟨-, t, ht, rfl⟩ := of_withLeaf hk
    · exact ⟨parent, _, hup, withLeaf_old hnew hparent, by simp⟩
    · obtain ⟨p, u, hp, hu, hc⟩ := h.up ht hroot
      exact ⟨p, _, by simpa using hp, withLeaf_old hnew hu, by simp [hc]⟩
  case down =>
    intro key t c hk hc
    obtain ⟨rfl, rfl⟩ | ⟨-, t, ht, rfl⟩ := of_withLeaf hk
    · simp [hdown] at hc
    · obtain hc | ⟨rfl, rfl⟩ := mem_children_adopting.1 hc
      · obtain ⟨u, hu, hp⟩ := h.down ht hc
        exact ⟨_, withLeaf_old hnew hu, by simpa using hp⟩
      · exact ⟨leaf, withLeaf_new, hup⟩
  case nodup =>
    intro key t hk
    obtain ⟨rfl, rfl⟩ | ⟨-, t, ht, rfl⟩ := of_withLeaf hk
    · simp [hdown]
    · rw [adopting]
      split
      · simpa using (h.nodup ht).concat (absent ht)
      · exact h.nodup ht
  case drawable =>
    intro key t hk hd
    obtain ⟨rfl, rfl⟩ | ⟨-, t, ht, rfl⟩ := of_withLeaf hk
    · exact hdown
    · rw [isDrawable_adopting] at hd
      have hkp : key ≠ parent := by
        rintro rfl
        simp_all
      simpa [adopting, hkp] using h.drawable ht hd
  case levels =>
    -- the leaf is one level below its parent, and all else stays where it is
    obtain ⟨level, last, hl, hlast⟩ := h.levels
    refine ⟨fun key => if key = new then level parent + 1 else level key, last + 1, ?_, ?_⟩
    · intro key t c hk hc
      obtain ⟨rfl, rfl⟩ | ⟨hkn, t, ht, rfl⟩ := of_withLeaf hk
      · simp [hdown] at hc
      · obtain hc | ⟨rfl, rfl⟩ := mem_children_adopting.1 hc
        · have hcn : c ≠ new := fun e => absent ht (e ▸ hc)
          simp only [if_neg hcn, if_neg hkn]
          exact hl ht hc
        · simp [hkn]
    · intro key t hk
      obtain ⟨rfl, rfl⟩ | ⟨hkn, t, ht, rfl⟩ := of_withLeaf hk
      · simp [hlast hparent]
      · simp only [if_neg hkn]
        exact Nat.le_succ_of_le (hlast ht)

theorem OwnsManagers.withLeaf {live live' : ManagerKey → Prop} (h : OwnsManagers shapes live)
    (hnew : shapes new = none) (hlive : ∀ m, live' m ↔ live m ∨ leaf.owned = some m)
    (hfresh : ∀ m, leaf.owned = some m → ¬live m) :
    OwnsManagers (Shape.withLeaf shapes new parent leaf) live' := by
  constructor
  case owned =>
    intro key t m hk hm
    obtain ⟨rfl, rfl⟩ | ⟨-, t, ht, rfl⟩ := of_withLeaf hk
    · exact (hlive m).2 (Or.inr hm)
    · exact (hlive m).2 (Or.inl (h.owned ht (by simpa using hm)))
  case unique =>
    intro key key' t t' m hk hk' hm hm'
    obtain ⟨rfl, rfl⟩ | ⟨-, t, ht, rfl⟩ := of_withLeaf hk <;>
      obtain ⟨rfl, rfl⟩ | ⟨-, t', ht', rfl⟩ := of_withLeaf hk'
    · rfl
    · exact absurd (h.owned ht' (by simpa using hm')) (hfresh m hm)
    · exact absurd (h.owned ht (by simpa using hm)) (hfresh m hm')
    · exact h.unique ht ht' (by simpa using hm) (by simpa using hm')
  case owner =>
    intro m hm
    obtain hm | hm := (hlive m).1 hm
    · obtain ⟨key, t, ht, ho⟩ := h.owner hm
      exact ⟨key, _, withLeaf_old hnew ht, by simpa using ho⟩
    · exact ⟨new, leaf, withLeaf_new, hm⟩

end WithLeaf

/-! ### A subtree taken away -/

section WithoutSubtree

/-- The shape of the node `key` when `removed` is no child of its parent any more. -/
def disowning (parent : Option NodeKey) (removed key : NodeKey) (s : Shape) : Shape :=
  if some key = parent then { s with children := s.children.filter (· ≠ removed) } else s

variable {parent : Option NodeKey} {removed key : NodeKey} {s : Shape}

@[simp] lemma parent_disowning : (s.disowning parent removed key).parent = s.parent := by
  rw [disowning]
  split <;> rfl

@[simp] lemma isDrawable_disowning :
    (s.disowning parent removed key).isDrawable = s.isDrawable := by
  rw [disowning]
  split <;> rfl

@[simp] lemma owned_disowning : (s.disowning parent removed key).owned = s.owned := by
  rw [disowning]
  split <;> rfl

@[simp] lemma mem_children_disowning {c : NodeKey} :
    c ∈ (s.disowning parent removed key).children ↔
      c ∈ s.children ∧ (some key = parent → c ≠ removed) := by
  rw [disowning]
  split <;> simp [*]

/-- `gone` holds a node and what is below it: everything that links lead to from there, and nothing
else. -/
structure IsSubtree (shapes : NodeKey → Option Shape) (top : NodeKey) (gone : List NodeKey) :
    Prop where
  top_mem : top ∈ gone
  down : ∀ {key s c}, key ∈ gone → shapes key = some s → c ∈ s.children → c ∈ gone
  up : ∀ {c}, c ∈ gone → c ≠ top → ∃ key s, key ∈ gone ∧ shapes key = some s ∧ c ∈ s.children

/-- The shapes without a subtree, whose top is no child of its parent any more. -/
def withoutSubtree (shapes : NodeKey → Option Shape) (gone : List NodeKey)
    (parent : Option NodeKey) (removed : NodeKey) : NodeKey → Option Shape := fun key =>
  if key ∈ gone then none else (shapes key).map (disowning parent removed key)

variable {gone : List NodeKey}

lemma withoutSubtree_kept (hs : shapes key = some s) (hk : key ∉ gone) :
    withoutSubtree shapes gone parent removed key = some (s.disowning parent removed key) := by
  simp [withoutSubtree, hs, hk]

lemma of_withoutSubtree {t : Shape}
    (ht : withoutSubtree shapes gone parent removed key = some t) :
    key ∉ gone ∧ ∃ s, shapes key = some s ∧ t = s.disowning parent removed key := by
  by_cases hk : key ∈ gone
  · simp [withoutSubtree, hk] at ht
  · simp only [withoutSubtree, if_neg hk, Option.map_eq_some_iff] at ht
    obtain ⟨s, hs, rfl⟩ := ht
    exact ⟨hk, s, hs, rfl⟩

theorem IsTree.withoutSubtree (h : IsTree shapes root) (hsub : IsSubtree shapes removed gone)
    (hroot : removed ≠ root) (hs : shapes removed = some s) :
    IsTree (withoutSubtree shapes gone s.parent removed) root := by
  have root_kept : root ∉ gone := fun hr => by
    obtain ⟨key, t, -, ht, hc⟩ := hsub.up hr hroot.symm
    obtain ⟨u, hu, hp⟩ := h.down ht hc
    obtain ⟨v, hv, hn⟩ := h.root_parent
    simp_all
  constructor
  case root_parent =>
    obtain ⟨t, ht, hp⟩ := h.root_parent
    exact ⟨_, withoutSubtree_kept ht root_kept, by simpa using hp⟩
  case up =>
    intro key t hk hroot
    obtain ⟨hkept, t, ht, rfl⟩ := of_withoutSubtree hk
    obtain ⟨p, u, hp, hu, hc⟩ := h.up ht hroot
    have hpk : p ∉ gone := fun hg => hkept (hsub.down hg hu hc)
    refine ⟨p, _, by simpa using hp, withoutSubtree_kept hu hpk, ?_⟩
    simp only [mem_children_disowning, hc, true_and]
    rintro - rfl
    exact hkept hsub.top_mem
  case down =>
    intro key t c hk hc
    obtain ⟨hkept, t, ht, rfl⟩ := of_withoutSubtree hk
    obtain ⟨hc, hcr⟩ := mem_children_disowning.1 hc
    obtain ⟨u, hu, hp⟩ := h.down ht hc
    refine ⟨_, withoutSubtree_kept hu fun hg => ?_, by simpa using hp⟩
    by_cases he : c = removed
    · subst he
      obtain rfl : s = u := by simpa [hs] using hu
      exact hcr hp.symm rfl
    · obtain ⟨key', t', hg', ht', hc'⟩ := hsub.up hg he
      exact hkept (h.eq_of_mem_children ht ht' hc hc' ▸ hg')
  case nodup =>
    intro key t hk
    obtain ⟨-, t, ht, rfl⟩ := of_withoutSubtree hk
    rw [disowning]
    split
    · exact (h.nodup ht).filter _
    · exact h.nodup ht
  case drawable =>
    intro key t hk hd
    obtain ⟨-, t, ht, rfl⟩ := of_withoutSubtree hk
    rw [isDrawable_disowning] at hd
    have hc := h.drawable ht hd
    rw [disowning]
    split <;> simp [hc]
  case levels =>
    obtain ⟨level, last, hl, hlast⟩ := h.levels
    refine ⟨level, last, fun hk hc => ?_, fun hk => ?_⟩ <;>
      obtain ⟨-, t, ht, rfl⟩ := of_withoutSubtree hk
    · exact hl ht (mem_children_disowning.1 hc).1
    · exact hlast ht

theorem OwnsManagers.withoutSubtree {live live' : ManagerKey → Prop}
    (h : OwnsManagers shapes live)
    (hlive : ∀ m, live' m ↔
      live m ∧ ¬∃ key s, key ∈ gone ∧ shapes key = some s ∧ s.owned = some m) :
    OwnsManagers (Shape.withoutSubtree shapes gone parent removed) live' := by
  constructor
  case owned =>
    intro key t m hk hm
    obtain ⟨hkept, t, ht, rfl⟩ := of_withoutSubtree hk
    rw [owned_disowning] at hm
    refine (hlive m).2 ⟨h.owned ht hm, ?_⟩
    rintro ⟨key', t', hg, ht', hm'⟩
    exact hkept (h.unique ht ht' hm hm' ▸ hg)
  case unique =>
    intro key key' t t' m hk hk' hm hm'
    obtain ⟨-, t, ht, rfl⟩ := of_withoutSubtree hk
    obtain ⟨-, t', ht', rfl⟩ := of_withoutSubtree hk'
    exact h.unique ht ht' (by simpa using hm) (by simpa using hm')
  case owner =>
    intro m hm
    obtain ⟨hm, hgone⟩ := (hlive m).1 hm
    obtain ⟨key, t, ht, ho⟩ := h.owner hm
    have hkept : key ∉ gone := fun hg => hgone ⟨key, t, hg, ht, ho⟩
    exact ⟨key, _, withoutSubtree_kept ht hkept, by simpa using ho⟩

end WithoutSubtree

end Shape

end SceneLighting
