import Inec.Tally.Atomicity

/-!
# What is decrypted after a restart

The final tally is asked to be the sum of the accepted counts. It is while every ciphertext is one under the key
of the process. A start makes a new key pair and loads ciphertexts of the old one, so that it has to draw the
old modulus again or find none: `State.Steady`.
-/

namespace Inec.Tally

open Checks

variable {s t : State}

/-! ### What is asked -/

/-- What a submission counts for a party of an election. -/
def EncryptedVote.countsFor (vote : EncryptedVote) (electionId party : String) : List Int :=
  if vote.electionId = electionId then (vote.partyVotes.filter (·.1 == party)).map (·.2) else []

/-- The counts of the accepted submissions. -/
def State.acceptedCounts (s : State) (electionId party : String) : List Int :=
  s.submissions.flatMap fun x => if x.phase = .accepted then x.vote.countsFor electionId party else []

/-- What `decrypt_final_tally` returns for a party, if it returns something for it. -/
def State.decrypted (s : State) (tokens : List String) (token electionId party : String) : Option Int :=
  (s.decryptFinalTally tokens token electionId).toOption.bind fun final =>
    (final.results.lookup party).map Int.ofNat

/-- The tally of every party is the sum of what was accepted for it. A party that no accepted submission names
has none. -/
def State.Exact (s : State) : Prop :=
  ∀ tokens token, token ∈ tokens → ∀ electionId party, s.decrypted tokens token electionId party =
    if s.acceptedCounts electionId party = [] then none else some (s.acceptedCounts electionId party).sum

/-- The counts that have been added for a party. -/
def State.counted (s : State) (electionId party : String) : List Int :=
  (s.contributionsTo electionId party).map (·.count)

/-- A regular step under one key: a start draws the modulus of the key before it, or finds no ciphertext, and no
tally reaches the modulus. -/
def State.Steady (s : State) : Input → Prop
  | .resume index _ => ∀ next ∈ s.nextCount index, ∀ key ∈ s.privateKey,
      0 ≤ next.2.2 ∧ (s.counted next.1.electionId next.2.1).sum + next.2.2 < key.publicKey.n
  | .restart draw => s.Idle ∧ (s.tally.entries = [] ∨ ∀ key ∈ s.privateKey, key.publicKey.n = draw.n)
  | i => s.Regular i

/-! ### One key -/

structure State.Keyed (s : State) : Prop where
  sound : ∀ key ∈ s.privateKey, key.Sound
  encrypted : ∀ c ∈ s.contributions, 0 ≤ c.count ∧
    ∃ key ∈ s.privateKey, c.key = key.publicKey ∧ Paillier.Encrypts key.publicKey.n c.ciphertext c.count.toNat
  below : ∀ key ∈ s.privateKey, ∀ electionId party, (s.counted electionId party).sum < key.publicKey.n

theorem counted_sum_nonneg (h : s.Keyed) (electionId party : String) : 0 ≤ (s.counted electionId party).sum := by
  apply List.sum_nonneg
  intro count hcount
  obtain ⟨c, hc, rfl⟩ := List.mem_map.mp hcount
  exact (h.encrypted c (List.mem_filter.mp hc).1).1

theorem State.Regular.of_steady {i : Input} (hkeyed : s.Keyed) (h : s.Steady i) : s.Regular i := by
  cases i with
  | submit vote fault => exact h
  | resume index draws =>
      intro next hnext key hkey
      obtain ⟨hcount, hsum⟩ := h next hnext key hkey
      have hpos := counted_sum_nonneg hkeyed next.1.electionId next.2.1
      exact ⟨hcount, by omega⟩
  | persist index fault => exact h
  | restart draw => exact h.1

theorem PaillierPrivateKey.Sound.publicKey_eq {key key' : PaillierPrivateKey} (h : key.Sound) (h' : key'.Sound)
    (hn : key.publicKey.n = key'.publicKey.n) : key.publicKey = key'.publicKey :=
  PaillierPublicKey.ext hn (by rw [h.generator, h'.generator, hn])

theorem State.Keyed.of_same (h : s.Keyed) (hkey : t.privateKey = s.privateKey)
    (hsame : t.contributions = s.contributions) :
    t.Keyed := by
  refine ⟨hkey ▸ h.sound, ?_, ?_⟩
  · rw [hkey, hsame]
    exact h.encrypted
  · intro key hk electionId party
    rw [hkey] at hk
    rw [State.counted, State.contributionsTo, hsame]
    exact h.below key hk electionId party

theorem counted_add (index : Nat) (vote : EncryptedVote) (key : PaillierPublicKey) (party : String) (count : Int)
    (ciphertext : Nat) (rest : List (String × Int)) (electionId party' : String) :
    (s.add index vote key party count ciphertext rest).counted electionId party' =
      s.counted electionId party' ++ if (electionId, party') = (vote.electionId, party) then [count] else [] := by
  show ((s.contributions ++ [_]).filter fun c : Contribution => c.isTo electionId party').map _ = _
  rw [List.filter_append, List.filter_singleton, List.map_append]
  split
  · rename_i hkey
    rw [Contribution.isTo_iff.mpr hkey]
    rfl
  · rename_i hkey
    rw [Bool.eq_false_iff.mpr fun hto => hkey (Contribution.isTo_iff.mp hto)]
    rfl

theorem eq_nil_of_product {contributions : List Contribution} (h : product contributions = none) :
    contributions = [] := by
  rcases List.eq_nil_or_concat contributions with hnil | ⟨init, last, hconcat⟩
  · exact hnil
  · rw [hconcat, List.concat_eq_append, product_append] at h
    cases h

/-- A table without a ciphertext means that nothing has been added. -/
theorem State.Books.contributions_eq_nil (h : s.Books) (hidle : s.Idle) (hempty : s.tally.entries = []) :
    s.contributions = [] := by
  apply List.eq_nil_iff_forall_not_mem.mpr
  intro c hc
  have hlookup : s.tally.lookup (c.electionId, c.party) = none := by
    rw [AList.lookup, hempty]
    rfl
  have hnil := eq_nil_of_product (by rw [← h.ledger.tallied, ← h.follows.stored hidle, hlookup])
  have hmem : c ∈ s.contributionsTo c.electionId c.party :=
    List.mem_filter.mpr ⟨hc, Contribution.isTo_iff.mpr rfl⟩
  rw [hnil] at hmem
  cases hmem

theorem State.Keyed.add (h : s.Keyed) {index : Nat} {draws : List Nat} {vote : EncryptedVote} {party : String}
    {count : Int} {ciphertext : Nat} {rest : List (String × Int)} {key : PaillierPrivateKey}
    (up : s.privateKey = some key) (encrypted : key.publicKey.encrypt count draws = some (.ok ciphertext))
    (hsum : (s.counted vote.electionId party).sum + count < key.publicKey.n) :
    (s.add index vote key.publicKey party count ciphertext rest).Keyed := by
  have hsound := h.sound key up
  obtain ⟨hrange, hencrypts⟩ := PaillierPublicKey.encrypts_of_encrypt hsound.generator encrypted
  refine ⟨h.sound, ?_, ?_⟩
  · intro c hc
    rcases List.mem_append.mp hc with hold | hnew
    · exact h.encrypted c hold
    · rw [List.mem_singleton.mp hnew]
      exact ⟨hrange.1, key, up, rfl, hencrypts⟩
  · intro key' hkey' electionId party'
    have heq : key' = key := by
      have hsome : s.privateKey = some key' := hkey'
      rw [up] at hsome
      exact (Option.some.inj hsome).symm
    rw [counted_add, List.sum_append, heq]
    split
    · rename_i hto
      obtain ⟨rfl, rfl⟩ := Prod.mk.inj hto
      rw [List.sum_singleton]
      exact hsum
    · rw [List.sum_nil, add_zero]
      exact h.below key up electionId party'

theorem State.Keyed.restart (h : s.Keyed) {draw : KeyDraw} (hprime : draw.Prime)
    (hsame : s.contributions = [] ∨ ∀ key ∈ s.privateKey, key.publicKey.n = draw.n) : (s.restart draw).Keyed := by
  obtain ⟨key, hn, hsound, heq⟩ := State.restart_eq (s := s) hprime
  rw [heq]
  refine ⟨?_, ?_, ?_⟩
  · intro key' hkey'
    cases hkey'
    exact hsound
  · intro c hc
    obtain ⟨hcount, key', hkey', hpublic, hencrypts⟩ := h.encrypted c hc
    rcases hsame with hnil | hsame
    · rw [show _ = _ from hnil] at hc
      cases hc
    · have hpub : key'.publicKey = key.publicKey :=
        (h.sound key' hkey').publicKey_eq hsound ((hsame key' hkey').trans hn.symm)
      exact ⟨hcount, key, rfl, hpublic.trans hpub, hpub ▸ hencrypts⟩
  · intro key' hkey' electionId party
    cases hkey'
    show (s.counted electionId party).sum < _
    cases hcontributions : s.contributionsTo electionId party with
    | nil =>
        have hone := hsound.modulus
        rw [State.counted, hcontributions]
        show (0 : Int) < _
        omega
    | cons c rest =>
        have hc : c ∈ s.contributions := by
          apply List.mem_of_mem_filter (p := fun c => c.isTo electionId party)
          show c ∈ s.contributionsTo electionId party
          rw [hcontributions]
          exact List.mem_cons_self
        obtain ⟨_, old, hold, _, _⟩ := h.encrypted c hc
        rcases hsame with hnil | hsame
        · rw [hnil] at hc
          cases hc
        · rw [hn, ← hsame old hold]
          exact h.below old hold electionId party

theorem State.Keyed.of_effect {i : Input} (he : Effect s i t) (hbooks : s.Books) (h : s.Keyed) (hprime : i.Prime)
    (hw : s.Steady i) : t.Keyed := by
  cases he with
  | still => exact h
  | ended vote phase atOnce => exact h.of_same rfl rfl
  | unanswered vote key up =>
      rw [State.insertRecord]
      split
      · exact h.of_same rfl rfl
      · exact h.of_same rfl rfl
  | recorded vote key up fresh =>
      rw [State.insertRecord, if_neg fresh]
      exact h.of_same rfl rfl
  | finished vote found => exact h.of_same rfl rfl
  | outOfRange vote party count rest key up found range => exact h.of_same rfl rfl
  | added vote party count rest ciphertext key up found encrypted =>
      apply h.add up encrypted
      exact (hw (vote, party, count) (by rw [State.nextCount, found]; rfl) key up).2
  | @persisted index fault vote party ciphertext rest found =>
      rw [(State.Regular.upsert hw found).1]
      exact h.of_same rfl rfl
  | restarted draw =>
      obtain ⟨hidle, hempty | hsame⟩ := hw
      · exact h.restart hprime (.inl (hbooks.contributions_eq_nil hidle hempty))
      · exact h.restart hprime (.inr hsame)

theorem keyed_start : start.Keyed := ⟨nofun, nofun, nofun⟩

/-! ### Decryption -/

/-- The product of ciphertexts under one key is a ciphertext of the sum. -/
theorem encrypts_product {key : PaillierPublicKey} {contributions : List Contribution} {total : Nat}
    (h : ∀ c ∈ contributions, c.key = key ∧ Paillier.Encrypts key.n c.ciphertext c.count.toNat)
    (hproduct : product contributions = some total) :
    Paillier.Encrypts key.n total (contributions.map (·.count.toNat)).sum := by
  induction contributions using List.reverseRecOn generalizing total with
  | nil => cases hproduct
  | append_singleton init last ih =>
      obtain ⟨hkey, hlast⟩ := h last (List.mem_append_right _ (List.mem_singleton_self _))
      rw [product_append, hkey] at hproduct
      rw [List.map_append, List.sum_append, List.map_singleton, List.sum_singleton]
      cases hinit : product init with
      | none =>
          rw [hinit] at hproduct
          cases hproduct
          rw [eq_nil_of_product hinit, List.map_nil, List.sum_nil, Nat.zero_add]
          exact hlast
      | some old =>
          rw [hinit] at hproduct
          cases hproduct
          exact PaillierPublicKey.encrypts_addEncrypted
            (ih (fun c hc => h c (List.mem_append_left _ hc)) hinit) hlast

theorem cast_sum_toNat {counts : List Int} (h : ∀ count ∈ counts, 0 ≤ count) :
    ((counts.map Int.toNat).sum : Int) = counts.sum := by
  induction counts with
  | nil => rfl
  | cons count rest ih =>
      have hcount := h count List.mem_cons_self
      have hrest := ih fun x hx => h x (List.mem_cons_of_mem _ hx)
      rw [List.map_cons, List.sum_cons, List.sum_cons, Nat.cast_add, hrest, Int.toNat_of_nonneg hcount]

/-- What is in memory for a party is decrypted to what has been added for it. -/
theorem decrypt_ciphertext? (hbooks : s.Books) (h : s.Keyed) {key : PaillierPrivateKey}
    (up : s.privateKey = some key) {electionId party : String} {total : Nat}
    (htotal : s.ciphertext? electionId party = some total) :
    (key.decrypt total : Int) = (s.counted electionId party).sum := by
  have hunder : ∀ c ∈ s.contributionsTo electionId party,
      c.key = key.publicKey ∧ Paillier.Encrypts key.publicKey.n c.ciphertext c.count.toNat := by
    intro c hc
    obtain ⟨_, key', hkey', hpublic, hencrypts⟩ := h.encrypted c (List.mem_filter.mp hc).1
    have heq : key = key' := Option.some.inj (up.symm.trans hkey')
    subst heq
    exact ⟨hpublic, hencrypts⟩
  rw [hbooks.ledger.tallied] at htotal
  have hencrypts := encrypts_product hunder htotal
  have hsum : ((((s.contributionsTo electionId party).map (·.count.toNat)).sum : Nat) : Int) =
      (s.counted electionId party).sum := by
    rw [State.counted, ← cast_sum_toNat, List.map_map]
    · rfl
    · intro count hcount
      obtain ⟨c, hc, rfl⟩ := List.mem_map.mp hcount
      exact (h.encrypted c (List.mem_filter.mp hc).1).1
  have hbelow := h.below key up electionId party
  rw [(h.sound key up).decrypts total _ hencrypts, Nat.mod_eq_of_lt (by omega)]
  exact hsum

theorem lookup_map (f : Nat → Nat) (entries : List (Sigma fun _ : String => Nat)) (party : String) :
    (entries.map fun entry => (entry.1, f entry.2)).lookup party = (entries.dlookup party).map f := by
  induction entries with
  | nil => rfl
  | cons entry rest ih =>
      rw [List.map_cons, List.lookup_cons]
      by_cases hparty : party = entry.1
      · subst hparty
        rw [beq_self_eq_true, List.dlookup_cons_eq]
        rfl
      · rw [beq_eq_false_iff_ne.mpr hparty, List.dlookup_cons_ne rest entry hparty]
        exact ih

theorem decrypted_eq {tokens : List String} {token : String} (htoken : token ∈ tokens) {key : PaillierPrivateKey}
    (up : s.privateKey = some key) (electionId party : String) :
    s.decrypted tokens token electionId party =
      (s.ciphertext? electionId party).map fun total => Int.ofNat (key.decrypt total) := by
  have hsome : tokens.isEmpty = false := by
    rw [List.isEmpty_eq_false_iff]
    exact List.ne_nil_of_mem htoken
  have hcontains : tokens.contains token = true := List.contains_iff_mem.mpr htoken
  rw [State.decrypted, State.decryptFinalTally, up, hsome, hcontains]
  cases htallies : s.encryptedTallies.lookup electionId with
  | none =>
      rw [State.ciphertext?, EncryptedTallies.ciphertext?, htallies]
      rfl
  | some parties =>
      rw [State.ciphertext?, EncryptedTallies.ciphertext?, htallies]
      show (List.lookup party (parties.entries.map fun entry => (entry.1, key.decrypt entry.2))).map Int.ofNat = _
      rw [lookup_map, Option.map_map]
      rfl

/-! ### What was accepted -/

theorem Contribution.isTo_of_eq {c : Contribution} {electionId : String} (h : c.electionId = electionId)
    (party : String) :
    c.isTo electionId party = (c.party == party) := by
  rw [Contribution.isTo, h, beq_self_eq_true, Bool.true_and]

/-- When no submission is under way, what has been added is what was accepted. -/
theorem counted_perm_acceptedCounts (h : s.Ledger) (hidle : s.Idle) (electionId party : String) :
    (s.counted electionId party).Perm (s.acceptedCounts electionId party) := by
  apply Owned.perm_flatMap Contribution.submission
  · intro c hc
    obtain ⟨x, hx, _⟩ := h.owned c hc
    exact (List.getElem?_eq_some_iff.mp hx).1
  · intro i x hx
    show ((s.contributionsOf i).filter fun c => c.isTo electionId party).map _ = _
    have helection : ∀ c ∈ s.contributionsOf i, c.electionId = x.vote.electionId := by
      intro c hc
      obtain ⟨hmem, hi⟩ := List.mem_filter.mp hc
      obtain ⟨y, hy, heq⟩ := h.owned c hmem
      rw [beq_iff_eq.mp hi, hx] at hy
      cases hy
      exact heq
    have hheld := h.held i x hx
    have hended := hidle x (List.mem_of_getElem? hx)
    rw [Submission.Holds] at hheld
    cases hphase : x.phase with
    | accepted =>
        rw [hphase] at hheld
        rw [if_pos rfl, EncryptedVote.countsFor, ← hheld]
        split
        · rename_i hto
          rw [List.filter_map, List.map_map]
          congr 1
          apply List.filter_congr
          intro c hc
          exact Contribution.isTo_of_eq ((helection c hc).trans hto) party
        · rename_i hother
          rw [List.map_eq_nil_iff, List.filter_eq_nil_iff]
          intro c hc hto
          have hkey := Contribution.isTo_iff.mp hto
          exact hother ((helection c hc).symm.trans (Prod.mk.inj hkey).1.symm)
    | refused status =>
        rw [hphase] at hheld
        rw [List.map_eq_nil_iff.mp hheld]
        rfl
    | failed =>
        rw [hphase] at hheld
        rw [List.map_eq_nil_iff.mp hheld]
        rfl
    | adding rest =>
        rw [hphase] at hended
        cases hended
    | persisting party ciphertext rest =>
        rw [hphase] at hended
        cases hended

/-- The final tally is exact where the books are kept under one key and no submission is under way. -/
theorem exact_of_keyed (hbooks : s.Books) (h : s.Keyed) (hidle : s.Idle) : s.Exact := by
  intro tokens token htoken electionId party
  have hperm := counted_perm_acceptedCounts hbooks.ledger hidle electionId party
  have hnone (hnil : s.contributionsTo electionId party = []) : s.acceptedCounts electionId party = [] := by
    rw [State.counted, hnil] at hperm
    exact hperm.symm.eq_nil
  cases up : s.privateKey with
  | none =>
      have hnil : s.contributionsTo electionId party = [] := by
        rw [State.contributionsTo, List.filter_eq_nil_iff]
        intro c hc _
        obtain ⟨_, key, hkey, _⟩ := h.encrypted c hc
        have hsome : s.privateKey = some key := hkey
        rw [up] at hsome
        cases hsome
      rw [hnone hnil, if_pos rfl, State.decrypted, State.decryptFinalTally, up]
      rfl
  | some key =>
      rw [decrypted_eq htoken up]
      cases htotal : s.ciphertext? electionId party with
      | none =>
          rw [hbooks.ledger.tallied] at htotal
          rw [hnone (eq_nil_of_product htotal), if_pos rfl]
          rfl
      | some total =>
          have hne : s.acceptedCounts electionId party ≠ [] := by
            intro hnil
            rw [hnil] at hperm
            have hcontributions := List.map_eq_nil_iff.mp hperm.eq_nil
            rw [hbooks.ledger.tallied, hcontributions] at htotal
            cases htotal
          rw [if_neg hne, ← hperm.sum_eq, ← decrypt_ciphertext? hbooks h up htotal]
          rfl

/-! ### Runs -/

structure State.UnderOneKey (s : State) : Prop where
  books : s.Books
  keyed : s.Keyed

/-- In a run of steady steps the final tally is exact whenever no submission is under way. -/
theorem exact_of_steady {inputs : List Input} (hprime : ∀ i ∈ inputs, i.Prime)
    (hcond : Runs.AllSteps step State.Steady start inputs) :
    ∀ s ∈ Runs.visited step start inputs, s.Idle → s.Exact := by
  have hstart : start.UnderOneKey := ⟨books_start, keyed_start⟩
  have hvisited : ∀ s ∈ Runs.visited step start inputs, s.UnderOneKey := by
    refine Runs.forall_visited ?_ hstart (hcond.and_of_mem hprime)
    intro s i h hi
    exact ⟨h.books.step hi.1 (.of_steady h.keyed hi.2), h.keyed.of_effect (effect_step s i) h.books hi.1 hi.2⟩
  exact fun s hs hidle => exact_of_keyed (hvisited s hs).books (hvisited s hs).keyed hidle

instance (s : State) : (i : Input) → Decidable (s.Steady i)
  | .submit _ _ => .isTrue trivial
  | .resume index _ => inferInstanceAs (Decidable (∀ next ∈ s.nextCount index, ∀ key ∈ s.privateKey, _))
  | .persist index fault => inferInstanceAs (Decidable (s.Regular (.persist index fault)))
  | .restart _ => inferInstanceAs (Decidable (s.Idle ∧ (_ ∨ ∀ key ∈ s.privateKey, _)))

/-- A submission, and another one after the next start. -/
def acrossRestart (draw : KeyDraw) : List Input :=
  [.restart KeyDraw.first, .submit ⟨"2027", "PU-1", [("A", 5)]⟩ none, .resume 0 [1], .persist 0 none, .resume 0 [],
    .restart draw, .submit ⟨"2027", "PU-2", [("A", 7)]⟩ none, .resume 1 [2], .persist 1 none, .resume 1 []]

theorem prime_of_acrossRestart {draw : KeyDraw} (h : draw.Prime) : ∀ i ∈ acrossRestart draw, i.Prime := by
  intro i hi
  simp only [acrossRestart, List.mem_cons, List.not_mem_nil, or_false] at hi
  rcases hi with rfl | rfl | rfl | rfl | rfl | rfl | rfl | rfl | rfl | rfl
  · exact KeyDraw.prime_first
  all_goals first | exact h | exact trivial

/-- The start after it draws the same two primes. -/
theorem exact_of_same_draw :
    Runs.AllSteps step State.Steady start (acrossRestart KeyDraw.first) ∧
      ∀ s ∈ Runs.visited step start (acrossRestart KeyDraw.first), s.Idle → s.Exact := by
  have hsteady : Runs.AllSteps step State.Steady start (acrossRestart KeyDraw.first) := by decide +kernel
  exact ⟨hsteady, exact_of_steady (prime_of_acrossRestart KeyDraw.prime_first) hsteady⟩

/-- It draws two others, and the ciphertext of the first submission is decrypted with the new key. -/
theorem not_exact_of_other_draw :
    ¬∀ inputs, (∀ i ∈ inputs, Input.Prime i) → Runs.AllSteps step State.Regular start inputs →
      ∀ s ∈ Runs.visited step start inputs, s.Idle → s.Exact := by
  intro h
  have hregular : Runs.AllSteps step State.Regular start (acrossRestart KeyDraw.second) := by decide +kernel
  have hidle : (Runs.final step start (acrossRestart KeyDraw.second)).Idle := by decide +kernel
  have hexact := h _ (prime_of_acrossRestart KeyDraw.prime_second) hregular _ (Runs.final_mem_visited _ _) hidle
    ["token"] "token" (List.mem_singleton_self _) "2027" "A"
  have hother : (Runs.final step start (acrossRestart KeyDraw.second)).decrypted ["token"] "token" "2027" "A" ≠
      if (Runs.final step start (acrossRestart KeyDraw.second)).acceptedCounts "2027" "A" = [] then none
      else some ((Runs.final step start (acrossRestart KeyDraw.second)).acceptedCounts "2027" "A").sum := by
    decide +kernel
  exact hother hexact

end Inec.Tally
