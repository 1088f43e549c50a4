import Mathlib.Data.List.Chain
import Mathlib.Data.List.Forall2
import Mathlib.Data.List.Induction
import Mathlib.Data.List.Nodup

/-!
# Hash chains

An entry of a hash chain carries its position, the hash of its predecessor, a body, and the hash of
all three. `Linked` says that the positions are consecutive and every entry names its predecessor;
`Valid` adds that every entry carries the digest of its own fields, which is what a verifier accepts.

Two facts are used of chains. `linked_append_singleton` extends a chain by one entry built from its
tail, the way a writer does. `forall₂_of_last_hash` is the commitment: a common last hash forces two
chains of one length to agree everywhere, as soon as the digest determines what went into it for the
bodies at hand. How far it does is a parameter, so a digest with an ambiguous preimage is covered too.
-/

namespace HashChain

/-- What a verifier reads off an entry. -/
structure View (Entry Hash Body : Type) where
  position : Entry → Int
  prior : Entry → Hash
  body : Entry → Body
  hash : Entry → Hash

variable {Entry Hash Body : Type} (view : View Entry Hash Body) (digest : Int → Hash → Body → Hash)

/-- The entries continue a chain whose last hash is `prior` and whose next position is `next`. -/
def Linked : Hash → Int → List Entry → Prop
  | _, _, [] => True
  | prior, next, e :: rest =>
      view.position e = next ∧ view.prior e = prior ∧ Linked (view.hash e) (next + 1) rest

/-- The entry carries the digest of its own fields. -/
def Sealed (e : Entry) : Prop :=
  view.hash e = digest (view.position e) (view.prior e) (view.body e)

def Valid (prior : Hash) (next : Int) (entries : List Entry) : Prop :=
  Linked view prior next entries ∧ ∀ e ∈ entries, Sealed view digest e

/-- The hash a chain ends with. -/
def lastHash (start : Hash) (entries : List Entry) : Hash :=
  (entries.getLast?.map view.hash).getD start

variable {view digest}

@[simp] theorem lastHash_nil (start : Hash) : lastHash view start [] = start := rfl

theorem lastHash_cons (start : Hash) (e : Entry) (rest : List Entry) :
    lastHash view start (e :: rest) = lastHash view (view.hash e) rest := by
  cases rest with
  | nil => rfl
  | cons e' rest' => simp [lastHash, List.getLast?_cons]

theorem linked_append {start : Hash} {next : Int} {entries more : List Entry} :
    Linked view start next (entries ++ more) ↔
      Linked view start next entries ∧
        Linked view (lastHash view start entries) (next + entries.length) more := by
  induction entries generalizing start next with
  | nil => simp [Linked]
  | cons e rest ih =>
      have hnext : next + 1 + (rest.length : Int) = next + ((rest.length + 1 : Nat) : Int) := by omega
      simp only [List.cons_append, Linked, ih, lastHash_cons, List.length_cons, and_assoc, hnext]

/-- A chain is extended by an entry at the next position that names its last hash. -/
theorem linked_append_singleton {start : Hash} {next : Int} {entries : List Entry} {e : Entry} :
    Linked view start next (entries ++ [e]) ↔
      Linked view start next entries ∧ view.position e = next + entries.length ∧
        view.prior e = lastHash view start entries := by
  rw [linked_append]
  simp [Linked]

/-- In a chain the positions are consecutive. -/
theorem position_of_linked {start : Hash} {next : Int} {entries : List Entry}
    (h : Linked view start next entries) :
    ∀ i (hi : i < entries.length), view.position entries[i] = next + i := by
  induction entries generalizing start next with
  | nil => intro i hi; simp at hi
  | cons e rest ih =>
      intro i hi
      cases i with
      | zero => simpa using h.1
      | succ i =>
          have := ih h.2.2 i (by simpa using hi)
          rw [List.getElem_cons_succ, this]
          omega

/-- In a chain each entry names the hash of the one before it. -/
theorem prior_succ_of_linked {start : Hash} {next : Int} {entries : List Entry}
    (h : Linked view start next entries) (i : Nat) (hi : i + 1 < entries.length) :
    view.prior entries[i + 1] = view.hash entries[i] := by
  induction entries generalizing start next i with
  | nil => simp at hi
  | cons e rest ih =>
      cases i with
      | zero =>
          cases rest with
          | nil => simp at hi
          | cons e' rest' => exact h.2.2.2.1
      | succ i =>
          rw [List.getElem_cons_succ, List.getElem_cons_succ]
          exact ih h.2.2 i (by simpa using hi)

/-- The positions of a chain increase strictly. -/
theorem pairwise_of_linked {start : Hash} {next : Int} {entries : List Entry}
    (h : Linked view start next entries) :
    entries.Pairwise fun e e' => view.position e < view.position e' := by
  rw [List.pairwise_iff_getElem]
  intro i j hi hj hij
  rw [position_of_linked h i hi, position_of_linked h j hj]
  omega

/-! ### Chains without positions -/

variable (view) in
/-- The entries continue a chain whose last hash is `prior`, wherever they stand. -/
def Chained : Hash → List Entry → Prop
  | _, [] => True
  | prior, e :: rest => view.prior e = prior ∧ Chained (view.hash e) rest

instance decidableChained [DecidableEq Hash] :
    ∀ (prior : Hash) (entries : List Entry), Decidable (Chained view prior entries)
  | _, [] => .isTrue trivial
  | prior, e :: rest =>
      have := decidableChained (view.hash e) rest
      inferInstanceAs (Decidable (view.prior e = prior ∧ Chained view (view.hash e) rest))

theorem chained_append {start : Hash} {entries more : List Entry} :
    Chained view start (entries ++ more) ↔
      Chained view start entries ∧ Chained view (lastHash view start entries) more := by
  induction entries generalizing start with
  | nil => simp [Chained]
  | cons first rest ih => simp only [List.cons_append, Chained, ih, lastHash_cons, and_assoc]

/-- Such a chain is extended by an entry that names its last hash. -/
theorem chained_append_singleton {start : Hash} {entries : List Entry} {e : Entry} :
    Chained view start (entries ++ [e]) ↔
      Chained view start entries ∧ view.prior e = lastHash view start entries := by
  rw [chained_append]
  simp [Chained]

variable (view) in
/-- The second entry names the first. -/
def Follows (e e' : Entry) : Prop := view.prior e' = view.hash e

theorem Chained.isChain {start : Hash} {entries : List Entry} (h : Chained view start entries) :
    entries.IsChain (Follows view) := by
  induction entries generalizing start with
  | nil => exact .nil
  | cons e rest ih =>
      cases rest with
      | nil => exact .singleton e
      | cons e' rest' => exact .cons_cons h.2.1 (ih h.2)

theorem Chained.follows {start : Hash} {before after : List Entry} {e e' : Entry}
    (h : Chained view start (before ++ e :: e' :: after)) : Follows view e e' :=
  (List.isChain_append_cons_cons.mp h.isChain).2.1

section Distinct

variable {start : Hash} {log : List Entry} (h : Chained view start log)

include h

/-- An entry names the start, or an entry of the chain. -/
theorem Chained.prior_eq {e : Entry} (he : e ∈ log) :
    view.prior e = start ∨ ∃ e' ∈ log, view.prior e = view.hash e' := by
  obtain ⟨before, after, rfl⟩ := List.append_of_mem he
  induction before using List.reverseRecOn with
  | nil => exact .inl h.1
  | append_singleton before last _ =>
      rw [List.append_assoc] at h
      exact .inr ⟨last, by simp, h.follows⟩

/-- Where a hash determines the prior one and the starting hash does not come again, no hash comes twice. -/
theorem Chained.nodup_hash
    (hprior : ∀ e ∈ log, ∀ e' ∈ log, view.hash e = view.hash e' → view.prior e = view.prior e')
    (hstart : ∀ e ∈ log, view.hash e ≠ start) : (log.map view.hash).Nodup := by
  refine List.pairwise_map.mpr (List.pairwise_iff_getElem.mpr ?_)
  intro i j hi hj hij heq
  -- two equal hashes can be followed back until one of them is the first
  induction i generalizing j with
  | zero =>
      obtain ⟨j, rfl⟩ := Nat.exists_eq_add_one.mpr hij
      have hfollows := List.isChain_iff_getElem.mp h.isChain j hj
      have hfirst : view.prior log[0] = start := by
        cases log with
        | nil => exact absurd hi (Nat.not_lt_zero 0)
        | cons e rest => exact h.1
      have hsame := hprior _ (List.getElem_mem hi) _ (List.getElem_mem hj) heq
      exact hstart _ (List.getElem_mem (Nat.lt_of_succ_lt hj)) (hfollows.symm.trans (hsame.symm.trans hfirst))
  | succ i ih =>
      obtain ⟨j, rfl⟩ := Nat.exists_eq_add_one.mpr (Nat.zero_lt_of_lt hij)
      have hfollows := List.isChain_iff_getElem.mp h.isChain i hi
      have hfollows' := List.isChain_iff_getElem.mp h.isChain j hj
      have hsame := hprior _ (List.getElem_mem hi) _ (List.getElem_mem hj) heq
      exact ih j _ _ (Nat.lt_of_succ_lt_succ hij) (hfollows.symm.trans (hsame.trans hfollows'))

/-- Entries that name each other in turn are one piece of the chain. -/
theorem Chained.isChain_iff_isInfix (hnodup : (log.map view.hash).Nodup)
    (hstart : ∀ e ∈ log, view.hash e ≠ start) {entries : List Entry} (hmem : ∀ e ∈ entries, e ∈ log) :
    entries.IsChain (Follows view) ↔ entries <:+: log := by
  refine ⟨fun hchain => ?_, h.isChain.infix⟩
  induction entries with
  | nil => exact List.nil_infix
  | cons e rest ih =>
      have he := hmem e List.mem_cons_self
      cases rest with
      | nil =>
          obtain ⟨before, after, rfl⟩ := List.append_of_mem he
          exact ⟨before, after, by simp⟩
      | cons e' rest' =>
          obtain ⟨hfollows, hrest⟩ := List.isChain_cons_cons.mp hchain
          obtain ⟨before, after, rfl⟩ := ih (fun e he => hmem e (List.mem_cons_of_mem _ he)) hrest
          -- what stands before the piece is the one entry with the hash it names
          induction before using List.reverseRecOn with
          | nil => exact absurd (hfollows.symm.trans h.1) (hstart e he)
          | append_singleton before last _ =>
              rw [List.append_assoc, List.append_assoc] at h
              have hlast : last ∈ before ++ [last] ++ e' :: rest' ++ after := by simp
              have hsame := List.inj_on_of_nodup_map hnodup he hlast (hfollows.symm.trans h.follows)
              exact ⟨before, after, by simp [hsame]⟩

end Distinct

/-- Two entries a verifier cannot tell apart. -/
def SameHashed (view : View Entry Hash Body) (e e' : Entry) : Prop :=
  view.position e = view.position e' ∧ view.prior e = view.prior e' ∧ view.body e = view.body e' ∧
    view.hash e = view.hash e'

/-- The commitment of a chain. `Good` is what every digest and the starting hash satisfy, and
`Compatible` is the relation between bodies under which a digest determines its inputs. -/
theorem forall₂_of_last_hash {Good : Hash → Prop} {Compatible : Body → Body → Prop}
    (hgood : ∀ n p b, Good (digest n p b))
    (hinj : ∀ n p p' b b', Good p → Good p' → Compatible b b' → digest n p b = digest n p' b' →
      p = p' ∧ b = b')
    {start start' : Hash} (hstart : Good start) (hstart' : Good start') {next : Int}
    {xs ys : List Entry} (hx : Valid view digest start next xs)
    (hy : Valid view digest start' next ys)
    (hcomp : List.Forall₂ (fun e e' => Compatible (view.body e) (view.body e')) xs ys)
    (hlast : lastHash view start xs = lastHash view start' ys) :
    start = start' ∧ List.Forall₂ (SameHashed view) xs ys := by
  induction hcomp generalizing start start' next with
  | nil => exact ⟨by simpa using hlast, List.Forall₂.nil⟩
  | @cons e e' xs ys hbody _ ih =>
      obtain ⟨⟨hpos, hprior, hlink⟩, hseal⟩ := hx
      obtain ⟨⟨hpos', hprior', hlink'⟩, hseal'⟩ := hy
      have hhash : view.hash e = digest next start (view.body e) := by
        rw [← hpos, ← hprior]
        exact hseal e List.mem_cons_self
      have hhash' : view.hash e' = digest next start' (view.body e') := by
        rw [← hpos', ← hprior']
        exact hseal' e' List.mem_cons_self
      rw [lastHash_cons, lastHash_cons] at hlast
      -- the tails agree first, which hands this position the equality of its two hashes
      obtain ⟨hhashes, htail⟩ := ih (hhash ▸ hgood _ _ _) (hhash' ▸ hgood _ _ _)
        ⟨hlink, fun x hx => hseal x (List.mem_cons_of_mem _ hx)⟩
        ⟨hlink', fun x hx => hseal' x (List.mem_cons_of_mem _ hx)⟩ hlast
      have hdigest : digest next start (view.body e) = digest next start' (view.body e') := by
        rw [← hhash, ← hhash', hhashes]
      obtain ⟨hpriors, hbodies⟩ := hinj next start start' _ _ hstart hstart' hbody hdigest
      refine ⟨hpriors, List.Forall₂.cons ⟨?_, ?_, hbodies, hhashes⟩ htail⟩
      · rw [hpos, hpos']
      · rw [hprior, hprior', hpriors]

end HashChain
