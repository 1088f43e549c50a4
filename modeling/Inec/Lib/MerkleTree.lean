import Mathlib.Data.List.Basic

/-!
# Merkle trees whose odd nodes go up

A level is joined pair by pair, and a last node without a partner goes up as it is. The nodes of a level are the
values of trees over the leaves, so the tree at the top says which leaves there were, and in which order. If the
hash has no collision among what is hashed for two lists, equal tops have equal trees.
-/

namespace MerkleTree

/-! ### Levels -/

section Levels

variable {δ : Type} (join : δ → δ → δ)

/-- The level above. -/
def next : List δ → List δ
  | left :: right :: rest => join left right :: next rest
  | level => level

/-- The loop up to a single node. A level is at least halved by every round but its last. -/
def climb : Nat → List δ → List δ
  | 0, level => level
  | rounds + 1, level => if 1 < level.length then climb rounds (next join level) else level

def top? (level : List δ) : Option δ := (climb join level.length level).head?

/-- The pairs that are joined in one round. -/
def pairs : List δ → List (δ × δ)
  | left :: right :: rest => (left, right) :: pairs rest
  | _ => []

/-- The pairs that are joined on the way up. -/
def joined : Nat → List δ → List (δ × δ)
  | 0, _ => []
  | rounds + 1, level => if 1 < level.length then pairs level ++ joined rounds (next join level) else []

variable {join}

theorem nil_or_singleton {level : List δ} (h : ∀ left right rest, level = left :: right :: rest → False) :
    level = [] ∨ ∃ only, level = [only] := by
  cases level with
  | nil => exact Or.inl rfl
  | cons only rest =>
      cases rest with
      | nil => exact Or.inr ⟨only, rfl⟩
      | cons right rest => exact (h only right rest rfl).elim

theorem length_next (level : List δ) : (next join level).length = (level.length + 1) / 2 := by
  fun_induction next join level with
  | case1 left right rest ih =>
      rw [List.length_cons, ih]
      simp only [List.length_cons]
      omega
  | case2 level hshort =>
      obtain rfl | ⟨only, rfl⟩ := nil_or_singleton hshort
      · simp
      · simp

theorem length_climb (rounds : Nat) (level : List δ) (h : level.length ≤ rounds + 1) :
    (climb join rounds level).length ≤ 1 := by
  induction rounds generalizing level with
  | zero => exact h
  | succ rounds ih =>
      rw [climb]
      split
      · apply ih
        rw [length_next]
        omega
      · omega

theorem climb_ne_nil (rounds : Nat) {level : List δ} (h : level ≠ []) : climb join rounds level ≠ [] := by
  induction rounds generalizing level with
  | zero => exact h
  | succ rounds ih =>
      rw [climb]
      split
      · apply ih
        apply List.ne_nil_of_length_pos
        rw [length_next]
        omega
      · exact h

/-- What respects joining can be done before or after a round. -/
theorem map_next {γ : Type} {join' : γ → γ → γ} (f : δ → γ) (hf : ∀ a b, f (join a b) = join' (f a) (f b))
    (level : List δ) : (next join level).map f = next join' (level.map f) := by
  fun_induction next join level with
  | case1 left right rest ih => rw [List.map_cons, hf, ih, List.map_cons, List.map_cons, next]
  | case2 level hshort =>
      obtain rfl | ⟨only, rfl⟩ := nil_or_singleton hshort
      · rfl
      · rfl

theorem map_climb {γ : Type} {join' : γ → γ → γ} (f : δ → γ) (hf : ∀ a b, f (join a b) = join' (f a) (f b))
    (rounds : Nat) (level : List δ) : (climb join rounds level).map f = climb join' rounds (level.map f) := by
  induction rounds generalizing level with
  | zero => rfl
  | succ rounds ih =>
      rw [climb, climb, List.length_map]
      split
      · rw [ih, map_next f hf]
      · rfl

end Levels

/-! ### Trees -/

inductive Tree (α : Type) where
  | leaf (a : α)
  | node (left right : Tree α)

variable {α Bytes Digest : Type}

def Tree.leaves : Tree α → List α
  | .leaf a => [a]
  | .node left right => left.leaves ++ right.leaves

theorem leaves_next (trees : List (Tree α)) :
    (next Tree.node trees).flatMap Tree.leaves = trees.flatMap Tree.leaves := by
  fun_induction next Tree.node trees with
  | case1 left right rest ih =>
      rw [List.flatMap_cons, ih, Tree.leaves, List.flatMap_cons, List.flatMap_cons, List.append_assoc]
  | case2 level hshort => rfl

theorem leaves_climb (rounds : Nat) (trees : List (Tree α)) :
    (climb Tree.node rounds trees).flatMap Tree.leaves = trees.flatMap Tree.leaves := by
  induction rounds generalizing trees with
  | zero => rfl
  | succ rounds ih =>
      rw [climb]
      split
      · rw [ih, leaves_next]
      · rfl

/-- The tree over a list, and its leaves. -/
theorem exists_climb_eq {xs : List α} (h : xs ≠ []) :
    ∃ tree, climb Tree.node xs.length (xs.map Tree.leaf) = [tree] ∧ tree.leaves = xs := by
  have hlength : (climb Tree.node xs.length (xs.map Tree.leaf)).length ≤ 1 :=
    length_climb _ _ (by rw [List.length_map]; omega)
  have hne : climb Tree.node xs.length (xs.map Tree.leaf) ≠ [] := climb_ne_nil _ (by simpa using h)
  obtain ⟨tree, htree⟩ := List.length_eq_one_iff.mp (Nat.le_antisymm hlength (List.length_pos_of_ne_nil hne))
  refine ⟨tree, htree, ?_⟩
  have hleaves := leaves_climb xs.length (xs.map Tree.leaf)
  rw [htree, List.flatMap_map, List.flatMap_singleton] at hleaves
  rw [hleaves]
  simp [Tree.leaves]

/-! ### Hashes -/

/-- How leaves and pairs of digests are written before they are hashed. -/
structure Encoding (α Bytes Digest : Type) where
  leaf : α → Bytes
  pair : Digest × Digest → Bytes
  leaf_inj : ∀ a b, leaf a = leaf b → a = b
  pair_inj : ∀ p q, pair p = pair q → p = q
  leaf_ne_pair : ∀ a p, leaf a ≠ pair p

variable (e : Encoding α Bytes Digest) (hash : Bytes → Digest)

def Encoding.join (left right : Digest) : Digest := hash (e.pair (left, right))

/-- The digest at the top of the tree over a list. -/
def Encoding.root? (xs : List α) : Option Digest := top? (e.join hash) (xs.map fun a => hash (e.leaf a))

/-- What is hashed on the way to it. -/
def Encoding.hashed (xs : List α) : List Bytes :=
  xs.map e.leaf ++ (joined (e.join hash) xs.length (xs.map fun a => hash (e.leaf a))).map e.pair

def Tree.value : Tree α → Digest
  | .leaf a => hash (e.leaf a)
  | .node left right => e.join hash left.value right.value

/-- What is hashed in a tree. -/
def Tree.inputs : Tree α → List Bytes
  | .leaf a => [e.leaf a]
  | .node left right => e.pair (left.value e hash, right.value e hash) :: (left.inputs ++ right.inputs)

variable {e hash}

/-- Without a collision between two trees, equal digests have equal trees. -/
theorem Tree.eq_of_value_eq {tree tree' : Tree α}
    (hfree : ∀ x ∈ tree.inputs e hash, ∀ y ∈ tree'.inputs e hash, hash x = hash y → x = y)
    (h : tree.value e hash = tree'.value e hash) : tree = tree' := by
  induction tree generalizing tree' with
  | leaf a =>
      cases tree' with
      | leaf b => rw [e.leaf_inj a b (hfree _ List.mem_cons_self _ List.mem_cons_self h)]
      | node left right =>
          exact absurd (hfree _ List.mem_cons_self _ List.mem_cons_self h) (e.leaf_ne_pair _ _)
  | node left right ihleft ihright =>
      cases tree' with
      | leaf b => exact absurd (hfree _ List.mem_cons_self _ List.mem_cons_self h).symm (e.leaf_ne_pair _ _)
      | node left' right' =>
          have hpair := e.pair_inj _ _ (hfree _ List.mem_cons_self _ List.mem_cons_self h)
          rw [Prod.mk.injEq] at hpair
          have hleft : left = left' := by
            refine ihleft (fun x hx y hy => hfree x ?_ y ?_) hpair.1
            · exact List.mem_cons_of_mem _ (List.mem_append_left _ hx)
            · exact List.mem_cons_of_mem _ (List.mem_append_left _ hy)
          have hright : right = right' := by
            refine ihright (fun x hx y hy => hfree x ?_ y ?_) hpair.2
            · exact List.mem_cons_of_mem _ (List.mem_append_right _ hx)
            · exact List.mem_cons_of_mem _ (List.mem_append_right _ hy)
          rw [hleft, hright]

/-- A round hashes the pairs of the level. -/
theorem inputs_next {trees : List (Tree α)} {tree : Tree α} (h : tree ∈ next Tree.node trees) :
    ∀ x ∈ tree.inputs e hash, x ∈ trees.flatMap (Tree.inputs e hash) ∨
      x ∈ (pairs (trees.map (Tree.value e hash))).map e.pair := by
  fun_induction next Tree.node trees with
  | case1 left right rest ih =>
      intro x hx
      rw [List.flatMap_cons, List.flatMap_cons, List.map_cons, List.map_cons, pairs, List.map_cons]
      cases h with
      | head =>
          rcases List.mem_cons.mp hx with rfl | hx
          · exact Or.inr List.mem_cons_self
          · rw [← List.append_assoc]
            exact Or.inl (List.mem_append_left _ hx)
      | tail _ h =>
          rcases ih h x hx with hx | hx
          · exact Or.inl (List.mem_append_right _ (List.mem_append_right _ hx))
          · exact Or.inr (List.mem_cons_of_mem _ hx)
  | case2 level hshort =>
      intro x hx
      exact Or.inl (List.mem_flatMap.mpr ⟨tree, h, hx⟩)

theorem inputs_climb {rounds : Nat} {trees : List (Tree α)} {tree : Tree α}
    (h : tree ∈ climb Tree.node rounds trees) :
    ∀ x ∈ tree.inputs e hash, x ∈ trees.flatMap (Tree.inputs e hash) ∨
      x ∈ (joined (e.join hash) rounds (trees.map (Tree.value e hash))).map e.pair := by
  induction rounds generalizing trees with
  | zero =>
      intro x hx
      exact Or.inl (List.mem_flatMap.mpr ⟨tree, h, hx⟩)
  | succ rounds ih =>
      intro x hx
      rw [climb] at h
      rw [joined, List.length_map]
      split at h
      · next hlength =>
        rw [if_pos hlength, List.map_append, List.mem_append]
        have hvalues : (next Tree.node trees).map (Tree.value e hash) =
            next (e.join hash) (trees.map (Tree.value e hash)) := map_next _ (fun _ _ => rfl) trees
        rw [← hvalues]
        rcases ih h x hx with hx | hx
        · obtain ⟨below, hbelow, hx⟩ := List.mem_flatMap.mp hx
          exact (inputs_next hbelow x hx).imp_right Or.inl
        · exact Or.inr (Or.inr hx)
      · exact Or.inl (List.mem_flatMap.mpr ⟨tree, h, hx⟩)

/-- The top is that of the tree over the list, which hashes nothing else. -/
theorem exists_tree_climb (e : Encoding α Bytes Digest) (hash : Bytes → Digest) {xs : List α} (h : xs ≠ []) :
    ∃ tree : Tree α, climb Tree.node xs.length (xs.map Tree.leaf) = [tree] ∧ tree.leaves = xs ∧
      e.root? hash xs = some (tree.value e hash) ∧ ∀ x ∈ tree.inputs e hash, x ∈ e.hashed hash xs := by
  obtain ⟨tree, hclimb, hleaves⟩ := exists_climb_eq h
  have hvalues : (xs.map Tree.leaf).map (Tree.value e hash) = xs.map fun a => hash (e.leaf a) := by
    rw [List.map_map]
    rfl
  have htop : (climb Tree.node xs.length (xs.map Tree.leaf)).map (Tree.value e hash) =
      climb (e.join hash) xs.length ((xs.map Tree.leaf).map (Tree.value e hash)) :=
    map_climb _ (fun _ _ => rfl) _ _
  rw [hclimb, hvalues] at htop
  refine ⟨tree, hclimb, hleaves, ?_, ?_⟩
  · rw [Encoding.root?, top?, List.length_map]
    exact congrArg List.head? htop.symm
  · intro x hx
    rcases inputs_climb (hclimb ▸ List.mem_singleton_self tree) x hx with hx | hx
    · refine List.mem_append_left _ ?_
      rw [List.flatMap_map] at hx
      obtain ⟨a, ha, hx⟩ := List.mem_flatMap.mp hx
      exact List.mem_map.mpr ⟨a, ha, (List.mem_singleton.mp hx).symm⟩
    · rw [hvalues] at hx
      exact List.mem_append_right _ hx

theorem exists_tree (e : Encoding α Bytes Digest) (hash : Bytes → Digest) {xs : List α} (h : xs ≠ []) :
    ∃ tree : Tree α, e.root? hash xs = some (tree.value e hash) ∧ tree.leaves = xs ∧
      ∀ x ∈ tree.inputs e hash, x ∈ e.hashed hash xs := by
  obtain ⟨tree, -, hleaves, hroot, hinputs⟩ := exists_tree_climb e hash h
  exact ⟨tree, hroot, hleaves, hinputs⟩

theorem root?_nil : e.root? hash [] = none := rfl

/-- Without a collision in what is hashed for two lists, equal roots are roots of equal lists. -/
theorem root?_inj {xs ys : List α}
    (hfree : ∀ x ∈ e.hashed hash xs, ∀ y ∈ e.hashed hash ys, hash x = hash y → x = y)
    (h : e.root? hash xs = e.root? hash ys) : xs = ys := by
  by_cases hxs : xs = []
  · by_cases hys : ys = []
    · rw [hxs, hys]
    · obtain ⟨tree, hroot, -⟩ := exists_tree e hash hys
      rw [hxs, hroot, root?_nil] at h
      cases h
  · by_cases hys : ys = []
    · obtain ⟨tree, hroot, -⟩ := exists_tree e hash hxs
      rw [hys, hroot, root?_nil] at h
      cases h
    · obtain ⟨tree, hroot, hleaves, hinputs⟩ := exists_tree e hash hxs
      obtain ⟨tree', hroot', hleaves', hinputs'⟩ := exists_tree e hash hys
      rw [hroot, hroot', Option.some.injEq] at h
      have htree := Tree.eq_of_value_eq (fun x hx y hy => hfree x (hinputs x hx) y (hinputs' y hy)) h
      rw [← hleaves, htree, hleaves']

/-! ### Texts that do not say what they are

Where a leaf can be hashed as the same bytes as a pair, the top does not say where the leaves are. -/

/-- The encoding that tells them apart by what they are, and not by their bytes. -/
def tagged : Encoding α (α ⊕ Digest × Digest) Digest where
  leaf := Sum.inl
  pair := Sum.inr
  leaf_inj := fun _ _ h => Sum.inl.inj h
  pair_inj := fun _ _ h => Sum.inr.inj h
  leaf_ne_pair := fun _ _ h => by cases h

section Untagged

variable (leafText : α → Bytes) (pairText : Digest × Digest → Bytes) (hash : Bytes → Digest)

/-- The hash of the bytes of a leaf or a pair. -/
def hashText (x : α ⊕ Digest × Digest) : Digest := hash (x.elim leafText pairText)

def Tree.top (tree : Tree α) : Digest := tree.value tagged (hashText leafText pairText hash)

/-- The trees are the same but where a leaf is hashed as the pair that the other has in its place. -/
inductive Tree.Alike : Tree α → Tree α → Prop
  | leaf (a : α) : Alike (.leaf a) (.leaf a)
  | node {left right left' right' : Tree α} : Alike left left' → Alike right right' →
      Alike (.node left right) (.node left' right')
  | leafPair {a : α} {left right : Tree α} :
      leafText a = pairText (left.top leafText pairText hash, right.top leafText pairText hash) →
      Alike (.leaf a) (.node left right)
  | pairLeaf {a : α} {left right : Tree α} :
      leafText a = pairText (left.top leafText pairText hash, right.top leafText pairText hash) →
      Alike (.node left right) (.leaf a)

/-- The tree over a list. -/
def tree? (xs : List α) : Option (Tree α) := (climb Tree.node xs.length (xs.map Tree.leaf)).head?

def Alike (xs ys : List α) : Prop :=
  ∃ tree ∈ tree? xs, ∃ tree' ∈ tree? ys, tree.Alike leafText pairText hash tree'

/-- The bytes that are hashed for a list. -/
def texts (xs : List α) : List Bytes :=
  (tagged.hashed (hashText leafText pairText hash) xs).map fun x => x.elim leafText pairText

variable {leafText pairText hash}

theorem Tree.Alike.top_eq {tree tree' : Tree α} (h : tree.Alike leafText pairText hash tree') :
    tree.top leafText pairText hash = tree'.top leafText pairText hash := by
  induction h with
  | leaf a => rfl
  | node _ _ ihleft ihright => exact congrArg₂ (fun left right => hash (pairText (left, right))) ihleft ihright
  | leafPair htext => exact congrArg hash htext
  | pairLeaf htext => exact (congrArg hash htext).symm

/-- Without a collision between two trees, equal digests have trees that are alike. -/
theorem Tree.alike_of_top_eq (hleaf : ∀ a b, leafText a = leafText b → a = b)
    (hpair : ∀ p q, pairText p = pairText q → p = q) {tree tree' : Tree α}
    (hfree : ∀ x ∈ tree.inputs tagged (hashText leafText pairText hash),
      ∀ y ∈ tree'.inputs tagged (hashText leafText pairText hash),
        hashText leafText pairText hash x = hashText leafText pairText hash y →
          x.elim leafText pairText = y.elim leafText pairText)
    (h : tree.top leafText pairText hash = tree'.top leafText pairText hash) :
    tree.Alike leafText pairText hash tree' := by
  induction tree generalizing tree' with
  | leaf a =>
      have htext := fun y hy => hfree (Sum.inl a) List.mem_cons_self y hy
      cases tree' with
      | leaf b =>
          rw [hleaf a b (htext _ List.mem_cons_self h)]
          exact Tree.Alike.leaf b
      | node left right => exact Tree.Alike.leafPair (htext _ List.mem_cons_self h)
  | node left right ihleft ihright =>
      cases tree' with
      | leaf b => exact Tree.Alike.pairLeaf (hfree _ List.mem_cons_self _ List.mem_cons_self h).symm
      | node left' right' =>
          have hsame := hpair _ _ (hfree _ List.mem_cons_self _ List.mem_cons_self h)
          rw [Prod.mk.injEq] at hsame
          refine Tree.Alike.node (ihleft (fun x hx y hy => hfree x ?_ y ?_) hsame.1)
            (ihright (fun x hx y hy => hfree x ?_ y ?_) hsame.2)
          · exact List.mem_cons_of_mem _ (List.mem_append_left _ hx)
          · exact List.mem_cons_of_mem _ (List.mem_append_left _ hy)
          · exact List.mem_cons_of_mem _ (List.mem_append_right _ hx)
          · exact List.mem_cons_of_mem _ (List.mem_append_right _ hy)

theorem exists_tree? (leafText : α → Bytes) (pairText : Digest × Digest → Bytes)
    (hash : Bytes → Digest) {xs : List α} (h : xs ≠ []) : ∃ tree, tree? xs = some tree ∧
      tagged.root? (hashText leafText pairText hash) xs = some (tree.top leafText pairText hash) ∧
      ∀ x ∈ tree.inputs tagged (hashText leafText pairText hash),
        x ∈ tagged.hashed (hashText leafText pairText hash) xs := by
  obtain ⟨tree, hclimb, hleaves, hroot, hinputs⟩ := exists_tree_climb tagged (hashText leafText pairText hash) h
  refine ⟨tree, ?_, hroot, hinputs⟩
  rw [tree?, hclimb]
  rfl

/-- Without a collision in what is hashed for two lists, equal roots are roots of lists that are alike. -/
theorem root?_eq_iff_alike (hleaf : ∀ a b, leafText a = leafText b → a = b)
    (hpair : ∀ p q, pairText p = pairText q → p = q) {xs ys : List α}
    (hfree : ∀ x ∈ texts leafText pairText hash xs, ∀ y ∈ texts leafText pairText hash ys,
      hash x = hash y → x = y) :
    tagged.root? (hashText leafText pairText hash) xs = tagged.root? (hashText leafText pairText hash) ys ↔
      (xs = [] ∧ ys = []) ∨ Alike leafText pairText hash xs ys := by
  by_cases hxs : xs = []
  · by_cases hys : ys = []
    · simp [hxs, hys]
    · obtain ⟨tree', -, hroot', -⟩ := exists_tree? leafText pairText hash hys
      rw [hxs, hroot', root?_nil]
      constructor
      · nofun
      · rintro (h | ⟨tree, htree, -⟩)
        · exact absurd h.2 hys
        · cases htree
  · obtain ⟨tree, htree, hroot, hinputs⟩ := exists_tree? leafText pairText hash hxs
    by_cases hys : ys = []
    · rw [hys, hroot, root?_nil]
      constructor
      · nofun
      · rintro (h | ⟨_, _, tree', htree', -⟩)
        · exact absurd h.1 hxs
        · cases htree'
    · obtain ⟨tree', htree', hroot', hinputs'⟩ := exists_tree? leafText pairText hash hys
      rw [hroot, hroot', Option.some.injEq]
      constructor
      · intro h
        refine Or.inr ⟨tree, htree, tree', htree', Tree.alike_of_top_eq hleaf hpair ?_ h⟩
        intro x hx y hy hhash
        exact hfree _ (List.mem_map_of_mem (hinputs x hx)) _ (List.mem_map_of_mem (hinputs' y hy)) hhash
      · rintro (h | ⟨_, hsome, _, hsome', halike⟩)
        · exact absurd h.1 hxs
        · rw [htree, Option.mem_some] at hsome
          rw [htree', Option.mem_some] at hsome'
          subst hsome hsome'
          exact halike.top_eq

end Untagged

end MerkleTree
