import Inec.Voters.Register

/-!
# The standing of voters

What holds of the register however the statements of its requests come between each other: its rows stay and keep who
they are, a voter is marked and given a card once, and a row added on the way came by a registration that passed
its checks. Whether the wards, LGAs and states fit the polling units is up to registrations and reactivations.
-/

namespace Inec.Voters

open Checks Rfc3339

variable {sha256Hex : String → String} {tables : Tables} {schema : Schema}

/-! ### Rows stay -/

/-- What becomes of a row. -/
structure VoterRow.Becomes (r r' : VoterRow) : Prop where
  vin : r'.vin = r.vin
  nin : r'.nin = r.nin
  gender : r'.gender = r.gender
  pvcNumber : r'.pvcNumber = r.pvcNumber
  disabilityType : r'.disabilityType = r.disabilityType
  assistanceNeeded : r'.assistanceNeeded = r.assistanceNeeded
  born : r'.dateOfBirth = r.dateOfBirth ∨ r'.dateOfBirth = ""
  biometric : r'.biometricHash = r.biometricHash ∨ r'.biometricHash = none
  voted : r.hasVoted = true → r'.hasVoted = true ∧ r'.votedAt = r.votedAt
  collected : r.pvcCollected = true → r'.pvcCollected = true ∧ r'.pvcCollectedAt = r.pvcCollectedAt
  status : r'.status = r.status ∨ r'.status = .verified ∨ r'.status = .transferred ∨ r'.status = .active

theorem VoterRow.Becomes.refl (r : VoterRow) : r.Becomes r :=
  ⟨rfl, rfl, rfl, rfl, rfl, rfl, .inl rfl, .inl rfl, fun h => ⟨h, rfl⟩, fun h => ⟨h, rfl⟩, .inl rfl⟩

theorem VoterRow.Becomes.trans {r r' r'' : VoterRow} (h : r.Becomes r') (h' : r'.Becomes r'') : r.Becomes r'' where
  vin := h'.vin.trans h.vin
  nin := h'.nin.trans h.nin
  gender := h'.gender.trans h.gender
  pvcNumber := h'.pvcNumber.trans h.pvcNumber
  disabilityType := h'.disabilityType.trans h.disabilityType
  assistanceNeeded := h'.assistanceNeeded.trans h.assistanceNeeded
  born := h'.born.elim (fun heq => heq ▸ h.born) .inr
  biometric := h'.biometric.elim (fun heq => heq ▸ h.biometric) .inr
  voted hv := by
    obtain ⟨hmid, hat⟩ := h.voted hv
    obtain ⟨hend, hat'⟩ := h'.voted hmid
    exact ⟨hend, hat'.trans hat⟩
  collected hc := by
    obtain ⟨hmid, hat⟩ := h.collected hc
    obtain ⟨hend, hat'⟩ := h'.collected hmid
    exact ⟨hend, hat'.trans hat⟩
  status := h'.status.elim (fun heq => heq ▸ h.status) .inr

theorem becomes_update (w : Write) (now : Int) (r : VoterRow) : r.Becomes (w.update now r) := by
  unfold Write.update
  split
  · rename_i hsel
    have hrefl := VoterRow.Becomes.refl r
    cases w with
    | insert => exact hrefl
    | merge => exact hrefl
    | flag => exact hrefl
    | collectPVC vin =>
        refine { hrefl with collected := ?_ }
        intro hcollected
        simp only [Write.selects, hcollected, Bool.not_true, Bool.and_false] at hsel
        cases hsel
    | markVoted vin electionId =>
        refine { hrefl with voted := ?_ }
        intro hvoted
        simp only [Write.selects, hvoted, Bool.not_true, Bool.and_false] at hsel
        cases hsel
    | reactivate => exact { hrefl with status := .inr (.inr (.inr rfl)) }
    | verify => exact { hrefl with status := .inr (.inl rfl) }
    | transfer => exact { hrefl with status := .inr (.inr (.inl rfl)) }
    | erase => exact { hrefl with born := .inr rfl, biometric := .inr rfl }
    | eraseSubject => exact { hrefl with biometric := .inr rfl }
  · exact VoterRow.Becomes.refl r

/-- Every row is where it was, and has become what it could. -/
def GoesOn (rows rows' : List VoterRow) : Prop :=
  ∀ (i : Nat) (r : VoterRow), rows[i]? = some r → ∃ r', rows'[i]? = some r' ∧ r.Becomes r'

theorem goesOn_refl (rows : List VoterRow) : GoesOn rows rows := fun _ r h => ⟨r, h, VoterRow.Becomes.refl r⟩

theorem GoesOn.trans {rows rows' rows'' : List VoterRow} (h : GoesOn rows rows') (h' : GoesOn rows' rows'') :
    GoesOn rows rows'' := by
  intro i r hr
  obtain ⟨mid, hmid, hbecomes⟩ := h i r hr
  obtain ⟨last, hlast, hbecomes'⟩ := h' i mid hmid
  exact ⟨last, hlast, hbecomes.trans hbecomes'⟩

theorem Wrote.goesOn {now : Int} {rows rows' : List VoterRow} {w : Write} (h : Wrote now rows w rows') :
    GoesOn rows rows' := by
  intro i r hr
  cases h with
  | inserted row =>
      obtain ⟨hi, _⟩ := List.getElem?_eq_some_iff.mp hr
      exact ⟨r, (List.getElem?_append_left hi).trans hr, VoterRow.Becomes.refl r⟩
  | updated => exact ⟨w.update now r, by rw [List.getElem?_map, hr, Option.map_some], becomes_update w now r⟩

theorem goesOn_step (s : Register) (e : Event) : GoesOn s.voters (step sha256Hex tables schema s e).voters := by
  rcases @voters_step sha256Hex tables schema s e with heq | ⟨_, _, _, _, _, _, hwrote⟩
  · rw [heq]
    exact goesOn_refl _
  · exact hwrote.goesOn

/-- No voter leaves the register, is taken for another or loses a mark or a card, and no status comes back that
the requests cannot give. -/
theorem register_goes_on (s₀ : Register) (events : List Event) :
    (Runs.visited (step sha256Hex tables schema) s₀ events).Pairwise fun s t => GoesOn s.voters t.voters :=
  @Runs.pairwise_visited _ _ (step sha256Hex tables schema) (fun _ => True) (fun s t => GoesOn s.voters t.voters)
    (fun s => goesOn_refl s.voters) (fun _ _ _ h h' => h.trans h') (fun _ _ _ => trivial)
    (fun s e _ => goesOn_step s e) s₀ trivial events

/-! ### Marks and cards -/

/-- What is recorded of a voter once: having voted, having collected the card. -/
inductive Stamp
  | vote | card

/-- The statement records it of the voter. -/
def Stamp.covers : Stamp → String → Write → Bool
  | .vote, vin, .markVoted vin' _ => vin' == vin
  | .card, vin, .collectPVC vin' => vin' == vin
  | _, _, _ => false

def Stamp.flag : Stamp → VoterRow → Bool
  | .vote, r => r.hasVoted
  | .card, r => r.pvcCollected

def Stamp.time : Stamp → VoterRow → Option Int
  | .vote, r => r.votedAt
  | .card, r => r.pvcCollectedAt

/-- The times at which a request was told that it recorded it of the voter, whatever its election. -/
def Stamp.given (stamp : Stamp) (s : Register) (vin : String) : List Int :=
  (s.answers.filter fun a => stamp.covers vin a.write && a.reply.toBool).map (·.answeredAt)

/-- The rows of the voter that have it recorded. -/
def Stamp.count (stamp : Stamp) (rows : List VoterRow) (vin : String) : Nat :=
  rows.countP fun r => r.vin == vin && stamp.flag r

section Stamp

variable {stamp : Stamp} {vin : String} {now : Int} {w : Write} {rows rows' : List VoterRow}

theorem update_eq_of_covers (h : stamp.covers vin w = true) (r : VoterRow) :
    (w.selects r = (r.vin == vin && !stamp.flag r)) ∧
      (w.selects r = true → stamp.flag (w.update now r) = true ∧ stamp.time (w.update now r) = some now) := by
  unfold Write.update
  cases stamp <;> cases w <;> try cases h
  case vote.markVoted vin' electionId =>
    rw [← beq_iff_eq.mp h]
    refine ⟨rfl, ?_⟩
    intro hsel
    rw [if_pos hsel]
    exact ⟨rfl, rfl⟩
  case card.collectPVC vin' =>
    rw [← beq_iff_eq.mp h]
    refine ⟨rfl, ?_⟩
    intro hsel
    rw [if_pos hsel]
    exact ⟨rfl, rfl⟩

theorem update_eq_of_not_covers {r : VoterRow} (h : stamp.covers r.vin w = false) :
    stamp.flag (w.update now r) = stamp.flag r ∧ stamp.time (w.update now r) = stamp.time r := by
  unfold Write.update
  split
  · rename_i hsel
    cases stamp <;> cases w <;> first
      | exact ⟨rfl, rfl⟩
      | skip
    case vote.markVoted vin' electionId =>
      simp only [Write.selects, Bool.and_eq_true, beq_iff_eq] at hsel
      simp only [Stamp.covers, beq_eq_false_iff_ne, ne_eq] at h
      exact absurd hsel.1.symm h
    case card.collectPVC vin' =>
      simp only [Write.selects, Bool.and_eq_true, beq_iff_eq] at hsel
      simp only [Stamp.covers, beq_eq_false_iff_ne, ne_eq] at h
      exact absurd hsel.1.symm h
  · exact ⟨rfl, rfl⟩

/-- An update records it of the rows it selects, if it records it of the voter at all. -/
theorem count_map_update (stamp : Stamp) (vin : String) (now : Int) (w : Write) (rows : List VoterRow) :
    stamp.count (rows.map (w.update now)) vin =
      stamp.count rows vin + if stamp.covers vin w then rows.countP w.selects else 0 := by
  induction rows with
  | nil => simp [Stamp.count]
  | cons r rest ih =>
      have hvin := (becomes_update w now r).vin
      simp only [Stamp.count, List.map_cons, List.countP_cons, hvin] at ih ⊢
      rw [ih]
      cases hcovers : stamp.covers vin w with
      | true =>
          obtain ⟨hsel, hset⟩ := @update_eq_of_covers stamp vin now w hcovers r
          by_cases hr : w.selects r = true
          · have hboth := hsel ▸ hr
            simp only [Bool.and_eq_true, Bool.not_eq_true'] at hboth
            rw [(hset hr).1, hr, hboth.1, hboth.2]
            simp only [Bool.and_true, Bool.and_false, if_true, Bool.false_eq_true, if_false]
            omega
          · have hsame : w.update now r = r := if_neg hr
            rw [hsame, if_neg hr]
            simp only [if_true]
            omega
      | false =>
          by_cases hr : r.vin = vin
          · rw [(@update_eq_of_not_covers stamp now w r (by rw [hr, hcovers])).1]
            simp
          · simp [hr]

theorem execute_of_covers (h : stamp.covers vin w = true) :
    execute schema now rows w = .ok (rows.map (w.update now), rows.countP w.selects) ∧
      ∀ affected, (w.reply affected).toBool = (affected != 0) := by
  have hrequire : ∀ (affected : Nat) (err : HttpError),
      (Checks.require (affected != 0) err).toBool = (affected != 0) := by
    intro affected err
    cases affected <;> rfl
  cases stamp <;> cases w <;> first
    | exact ⟨rfl, fun affected => hrequire affected _⟩
    | cases h

theorem given_append (s : Register) (pending : List Write) (rows : List VoterRow) (a : Answer) :
    stamp.given ⟨rows, pending, s.answers ++ [a]⟩ vin =
      stamp.given s vin ++ if stamp.covers vin a.write && a.reply.toBool then [a.answeredAt] else [] := by
  simp only [Stamp.given, List.filter_append, List.map_append]
  cases hcond : stamp.covers vin a.write && a.reply.toBool <;> simp [hcond]

/-- Every row that has it recorded had it at the start, or has the time of an answer that said so, and there are
no more such answers than rows that came to have it. -/
structure Stamp.Recorded (stamp : Stamp) (s₀ s : Register) : Prop where
  bound : ∀ vin, (stamp.given s vin).length + stamp.count s₀.voters vin ≤ stamp.count s.voters vin
  origin : ∀ (i : Nat) (r : VoterRow), s.voters[i]? = some r → stamp.flag r = true →
    (∃ r₀, s₀.voters[i]? = some r₀ ∧ stamp.flag r₀ = true ∧ stamp.time r = stamp.time r₀) ∨
      ∃ t ∈ stamp.given s r.vin, stamp.time r = some t

theorem Stamp.Recorded.updated {s₀ s : Register} (h : stamp.Recorded s₀ s) {n affected : Nat}
    (haffected : ∀ vin, stamp.covers vin w = true → affected = s.voters.countP w.selects) :
    stamp.Recorded s₀
      ⟨s.voters.map (w.update now), s.pending.eraseIdx n, s.answers ++ [⟨w, now, w.reply affected⟩]⟩ := by
  constructor
  · intro vin
    have hbound := h.bound vin
    rw [given_append, count_map_update, List.length_append]
    cases hcovers : stamp.covers vin w with
    | false =>
        simp only [Bool.false_and, Bool.false_eq_true, if_false, List.length_nil]
        omega
    | true =>
        rw [(@execute_of_covers ⟨[], fun _ => true⟩ _ _ 0 w [] hcovers).2, ← haffected vin hcovers]
        cases affected <;> simp <;> omega
  · intro i r' hr' hflag
    simp only [List.getElem?_map, Option.map_eq_some_iff] at hr'
    obtain ⟨r, hr, rfl⟩ := hr'
    have hvin := (becomes_update w now r).vin
    have hkept : stamp.flag (w.update now r) = stamp.flag r →
        stamp.time (w.update now r) = stamp.time r →
        (∃ r₀, s₀.voters[i]? = some r₀ ∧ stamp.flag r₀ = true ∧ stamp.time (w.update now r) = stamp.time r₀) ∨
          ∃ t ∈ stamp.given
            ⟨s.voters.map (w.update now), s.pending.eraseIdx n, s.answers ++ [⟨w, now, w.reply affected⟩]⟩ r.vin,
            stamp.time (w.update now r) = some t := by
      intro hsame htime
      rw [htime, given_append]
      refine (h.origin i r hr (hsame ▸ hflag)).imp_right ?_
      rintro ⟨t, ht, heq⟩
      exact ⟨t, List.mem_append_left _ ht, heq⟩
    rw [hvin]
    cases hcovers : stamp.covers r.vin w with
    | false =>
        obtain ⟨hsame, htime⟩ := @update_eq_of_not_covers stamp now w r hcovers
        exact hkept hsame htime
    | true =>
        by_cases hsel : w.selects r = true
        · refine .inr ⟨now, ?_, ((@update_eq_of_covers stamp _ now w hcovers r).2 hsel).2⟩
          have hpos : 0 < s.voters.countP w.selects := List.countP_pos_iff.mpr ⟨r, List.mem_of_getElem? hr, hsel⟩
          have hreply : (w.reply affected).toBool = true := by
            rw [(@execute_of_covers ⟨[], fun _ => true⟩ _ _ 0 w [] hcovers).2, haffected _ hcovers]
            exact bne_iff_ne.mpr hpos.ne'
          rw [given_append, hcovers, hreply]
          exact List.mem_append_right _ List.mem_cons_self
        · have hsame : w.update now r = r := if_neg hsel
          exact hkept (by rw [hsame]) (by rw [hsame])

/-- A statement keeps it, unless it inserts a row that has it recorded already. -/
theorem Stamp.Recorded.issue {s₀ s : Register} (h : stamp.Recorded s₀ s)
    (hfresh : ∀ row, w = .insert row → stamp.flag row = false) (n : Nat) :
    stamp.Recorded s₀ (s.issue schema n now w) := by
  rcases @issue_cases schema s n now w with ⟨err, herr, hissue⟩ | ⟨rows, affected, hok, hwrote, hissue⟩
  · have hcovers : ∀ vin, stamp.covers vin w = false := by
      intro vin
      cases hcovers : stamp.covers vin w with
      | false => rfl
      | true =>
          rw [(execute_of_covers hcovers).1] at herr
          cases herr
    have hgiven : ∀ vin, stamp.given
        ⟨s.voters, s.pending.eraseIdx n, s.answers ++ [⟨w, now, w.failure err⟩]⟩ vin = stamp.given s vin := by
      intro vin
      rw [given_append, hcovers vin]
      exact List.append_nil _
    rw [hissue]
    refine ⟨fun vin => ?_, fun i r hr hflag => ?_⟩
    · rw [hgiven]
      exact h.bound vin
    · rw [hgiven]
      exact h.origin i r hr hflag
  · rw [hissue]
    cases hwrote with
    | updated =>
        refine h.updated fun vin hcovers => ?_
        rw [(execute_of_covers hcovers).1] at hok
        cases hok
        rfl
    | inserted row =>
        have hnew := hfresh row rfl
        have hgiven : ∀ vin, stamp.given ⟨s.voters ++ [row], s.pending.eraseIdx n,
            s.answers ++ [⟨.insert row, now, (Write.insert row).reply affected⟩]⟩ vin = stamp.given s vin := by
          intro vin
          rw [given_append]
          cases stamp <;> exact List.append_nil _
        refine ⟨fun vin => ?_, fun i r hr hflag => ?_⟩
        · have hbound := h.bound vin
          rw [hgiven]
          simp only [Stamp.count, List.countP_append, List.countP_singleton, hnew, Bool.and_false] at hbound ⊢
          omega
        · rw [hgiven]
          rcases Nat.lt_or_ge i s.voters.length with hi | hi
          · exact h.origin i r ((List.getElem?_append_left hi).symm.trans hr) hflag
          · simp only [List.getElem?_append_right hi] at hr
            have hrow := List.mem_singleton.mp (List.mem_of_getElem? hr)
            rw [hrow, hnew] at hflag
            cases hflag

end Stamp

/-! ### Where statements come from -/

/-- No request is under way, and none is on record. -/
structure Idle (s : Register) : Prop where
  pending : s.pending = []
  answers : s.answers = []

variable (sha256Hex tables schema) in
/-- The register after these events. -/
def after (s₀ : Register) (events : List Event) : Register := Runs.final (step sha256Hex tables schema) s₀ events

variable (sha256Hex tables schema) in
/-- The statement is that of a request of the run, admitted by the register it found. -/
def Admitted (s₀ : Register) (events : List Event) (request : VoterRequest) (w : Write) (visit : Visit) (m : Nat) :
    Prop :=
  events[m]? = some (.request visit request) ∧
    accept sha256Hex tables visit (after sha256Hex tables schema s₀ (events.take m)).voters request = .ok (some w)

theorem after_append_singleton (s₀ : Register) (events : List Event) (e : Event) :
    after sha256Hex tables schema s₀ (events ++ [e]) =
      step sha256Hex tables schema (after sha256Hex tables schema s₀ events) e :=
  Runs.final_append s₀ events [e]

theorem Admitted.append {s₀ : Register} {events : List Event} {request : VoterRequest} {w : Write} {visit : Visit}
    {m : Nat} (h : Admitted sha256Hex tables schema s₀ events request w visit m) (later : List Event) :
    Admitted sha256Hex tables schema s₀ (events ++ later) request w visit m := by
  obtain ⟨hat, haccept⟩ := h
  obtain ⟨hm, _⟩ := List.getElem?_eq_some_iff.mp hat
  refine ⟨(List.getElem?_append_left hm).trans hat, ?_⟩
  rwa [List.take_append_of_le_length (Nat.le_of_lt hm)]

/-- The statements under way and those on record were admitted. -/
theorem exists_admitted {s₀ : Register} (hidle : Idle s₀) (events : List Event) {w : Write}
    (h : (after sha256Hex tables schema s₀ events).Holds w) :
    ∃ request visit m, Admitted sha256Hex tables schema s₀ events request w visit m := by
  induction events using List.reverseRecOn with
  | nil =>
      have hstart : s₀.Holds w := h
      rw [Register.Holds, hidle.pending, hidle.answers] at hstart
      simp at hstart
  | append_singleton events e ih =>
      rw [after_append_singleton] at h
      rcases holds_step h with h | ⟨visit, request, rfl, haccept⟩
      · obtain ⟨request, visit, m, hadmitted⟩ := ih h
        exact ⟨request, visit, m, hadmitted.append [e]⟩
      · refine ⟨request, visit, events.length, by simp, ?_⟩
        rwa [List.take_left' rfl]

/-! ### The results -/

theorem recorded_start {s₀ : Register} (hidle : Idle s₀) (stamp : Stamp) : stamp.Recorded s₀ s₀ where
  bound vin := by simp [Stamp.given, hidle.answers]
  origin i r hr hflag := .inl ⟨r, hr, hflag, rfl⟩

theorem recorded_after {s₀ : Register} (hidle : Idle s₀) (stamp : Stamp) (events : List Event) :
    stamp.Recorded s₀ (after sha256Hex tables schema s₀ events) := by
  induction events using List.reverseRecOn with
  | nil => exact recorded_start hidle stamp
  | append_singleton events e ih =>
      rw [after_append_singleton]
      rcases @step_cases sha256Hex tables schema (after sha256Hex tables schema s₀ events) e with
        ⟨_, _, _, _, _, heq⟩ | ⟨n, now, w, _, hw, heq⟩ | ⟨_, _, heq⟩
      · rw [heq]
        exact ⟨ih.bound, ih.origin⟩
      · rw [heq]
        refine ih.issue ?_ n
        rintro row rfl
        obtain ⟨request, visit, m, hadmitted⟩ :=
          exists_admitted hidle events (.inl (List.mem_of_getElem? hw))
        obtain ⟨req, -, rfl, -⟩ := vouched_of_accept hadmitted.2
        cases stamp <;> rfl
      · rw [heq]
        exact ⟨ih.bound, ih.origin⟩

theorem count_le_one {stamp : Stamp} {rows : List VoterRow} (h : (rows.map (·.vin)).Nodup) (vin : String) :
    stamp.count rows vin ≤ 1 := by
  have hvins : stamp.count rows vin ≤ (rows.map (·.vin)).count vin := by
    rw [List.count, List.countP_map]
    refine List.countP_mono_left fun r _ hr => ?_
    exact (Bool.and_eq_true_iff.mp hr).1
  exact hvins.trans (List.nodup_iff_count_le_one.mp h vin)

/-- However requests come between each other, no more requests are told that they marked a voter, or gave out the
card, than rows of the voter came to be marked; a row is marked at the time such a request was told or as it was at
the start; and a mark was asked for while a voter of that number could vote. Where voters are told apart by their
numbers, that is one mark and one card for each, for all elections together. -/
theorem stamped_once {s₀ : Register} (hidle : Idle s₀) (stamp : Stamp) (events : List Event) :
    stamp.Recorded s₀ (after sha256Hex tables schema s₀ events) ∧
    (((after sha256Hex tables schema s₀ events).voters.map (·.vin)).Nodup →
      ∀ vin, (stamp.given (after sha256Hex tables schema s₀ events) vin).length ≤ 1) ∧
    (∀ t vin, t ∈ Stamp.vote.given (after sha256Hex tables schema s₀ events) vin → ∃ m < events.length,
      ∃ r ∈ (after sha256Hex tables schema s₀ (events.take m)).voters, r.vin = vin ∧ r.status.mayVote = true) := by
  have hrecorded := @recorded_after sha256Hex tables schema s₀ hidle stamp events
  refine ⟨hrecorded, ?_, ?_⟩
  · intro hnodup vin
    have hbound := hrecorded.bound vin
    have hone := @count_le_one stamp _ hnodup vin
    omega
  · intro t vin ht
    simp only [Stamp.given, List.mem_map, List.mem_filter, Bool.and_eq_true] at ht
    obtain ⟨a, ⟨ha, hcovers, -⟩, -⟩ := ht
    obtain ⟨request, visit, m, hadmitted⟩ := exists_admitted hidle events (.inr ⟨a, ha, rfl⟩)
    obtain ⟨hm, -⟩ := List.getElem?_eq_some_iff.mp hadmitted.1
    have hvouched := vouched_of_accept hadmitted.2
    cases hw : a.write with
    | markVoted vin' electionId =>
        rw [hw] at hcovers hvouched
        obtain ⟨r, hr, hvin, hmay⟩ := hvouched
        exact ⟨m, hm, r, hr, hvin.trans (beq_iff_eq.mp hcovers), hmay⟩
    | _ =>
        rw [hw] at hcovers
        cases hcovers

/-- Somebody of the ward of unit `U`, born on the last day of a leap year. -/
def newcomer : RegisterVoterRequest where
  firstName := "Ada"
  lastName := "Obi"
  middleName := ""
  dateOfBirth := "2008-12-31"
  gender := "F"
  phone := ""
  stateCode := "S"
  lgaCode := "L"
  wardCode := "W"
  pollingUnitCode := "U"
  biometricData := "arches"
  nin := ""
  disabilityType := ""
  assistanceNeeded := false

def listed : Register := ⟨[newcomer.row id 0], [], []⟩

def newYear : Visit := ⟨.plain 1 "chair" .admin 0, ⟨2027, 1, 1, ⟨by omega, by omega⟩, ⟨by omega, by decide⟩⟩, 0⟩

/-- Two officers read that the voter may vote before either writes. -/
def markedTwice : List Event :=
  [.request newYear (.markVoted "VINAdaObi2008-1" 1), .request newYear (.markVoted "VINAdaObi2008-1" 2),
    .issue 1 7, .issue 0 9]

theorem stamped_once_marked_twice :
    Stamp.vote.given (after id .empty ⟨[], fun _ => true⟩ listed markedTwice) "VINAdaObi2008-1" = [7] ∧
      (Stamp.vote.given (after id .empty ⟨[], fun _ => true⟩ listed markedTwice) "VINAdaObi2008-1").length ≤ 1 :=
  ⟨by decide +kernel, (stamped_once ⟨rfl, rfl⟩ .vote markedTwice).2.1 (by decide +kernel) _⟩

theorem checkBirth_eq_ok {today : Date} {dateOfBirth : String} (h : checkBirth today dateOfBirth = .ok ()) :
    ∃ dob, Date.parse dateOfBirth = some dob ∧ Date.Reached (dob.year + 18) dob.month dob.day today.next := by
  simp only [checkBirth, bind_eq_ok, fetch_eq_ok, require_eq_ok, decide_eq_true_eq] at h
  obtain ⟨dob, hdob, -, -, hage⟩ := h
  exact ⟨dob, hdob, Date.reached_of_ageOn (by exact_mod_cast hage)⟩

theorem checkBirth_under_age {today : Date} {dateOfBirth : String} {err : HttpError}
    (h : checkBirth today dateOfBirth = .error err) (hcode : err.code = 422) :
    ∃ dob, Date.parse dateOfBirth = some dob ∧
      ∀ d : Date, d.next = today → ¬ Date.Reached (dob.year + 18) dob.month dob.day d := by
  simp only [checkBirth, bind_eq_error, fetch_eq_error, require_eq_error, fetch_eq_ok] at h
  rcases h with ⟨-, rfl⟩ | ⟨dob, hdob, ⟨-, rfl⟩ | ⟨-, -, hage, -⟩⟩
  · cases hcode
  · cases hcode
  · refine ⟨dob, hdob, ?_⟩
    rintro d rfl
    exact Date.not_reached_of_ageOn (by simpa using hage)

variable (sha256Hex) in
/-- The row came by a registration that its checks let in: by staff, of somebody who came of age no later than the
day after, and with a fingerprint that nobody in the register had at the time. -/
structure Registered (rows : List VoterRow) (visit : Visit) (req : RegisterVoterRequest) (row : VoterRow) : Prop where
  staff : visit.env.claims.role = .admin ∨ visit.env.claims.role = .presidingOfficer
  named : req.firstName ≠ "" ∧ req.lastName ≠ ""
  ofAge : ∃ dob, Date.parse req.dateOfBirth = some dob ∧
    Date.Reached (dob.year + 18) dob.month dob.day visit.today.next
  unknown : ∀ hash, req.biometric sha256Hex = some hash → ∀ r ∈ rows, r.biometricHash ≠ some hash
  becomes : (req.row sha256Hex visit.unixNano).Becomes row

theorem registered_of_admitted {visit : Visit} {req : RegisterVoterRequest} {rows : List VoterRow} {w : Write}
    (h : handleRegisterVoter sha256Hex visit req rows = .ok w) :
    Registered sha256Hex rows visit req (req.row sha256Hex visit.unixNano) := by
  simp only [handleRegisterVoter, bind_eq_ok, require_eq_ok, requireRole, Bool.and_eq_true, bne_iff_ne,
    Bool.or_eq_true, beq_iff_eq] at h
  obtain ⟨_, hrole, _, ⟨⟨hfirst, hlast⟩, -⟩, _, hbirth, _, hhash, -⟩ := h
  refine ⟨by simpa using hrole, ⟨hfirst, hlast⟩, checkBirth_eq_ok hbirth, ?_, VoterRow.Becomes.refl _⟩
  intro hash hreq r hr heq
  rcases hhash with hempty | hall
  · rw [RegisterVoterRequest.biometric, if_pos hempty] at hreq
    cases hreq
  · have hne := bne_iff_ne.mp (List.all_eq_true.mp hall r hr)
    exact hne (heq.trans hreq.symm)

variable (sha256Hex tables schema) in
/-- A registration among the events brought the row in. -/
def CameIn (s₀ : Register) (events : List Event) (row : VoterRow) : Prop :=
  ∃ m visit req, events[m]? = some (.request visit (.register req)) ∧
    Registered sha256Hex (after sha256Hex tables schema s₀ (events.take m)).voters visit req row

theorem CameIn.later {s₀ : Register} {events : List Event} {row row' : VoterRow}
    (h : CameIn sha256Hex tables schema s₀ events row) (hbecomes : row.Becomes row') (e : Event) :
    CameIn sha256Hex tables schema s₀ (events ++ [e]) row' := by
  obtain ⟨m, visit, req, hat, hreg⟩ := h
  obtain ⟨hm, _⟩ := List.getElem?_eq_some_iff.mp hat
  refine ⟨m, visit, req, (List.getElem?_append_left hm).trans hat, ?_⟩
  rw [List.take_append_of_le_length (Nat.le_of_lt hm)]
  exact { hreg with becomes := hreg.becomes.trans hbecomes }

theorem cameIn_of_gained {s₀ : Register} (hidle : Idle s₀) (events : List Event) (i : Nat) (row : VoterRow)
    (hrow : (after sha256Hex tables schema s₀ events).voters[i]? = some row) (hi : s₀.voters.length ≤ i) :
    CameIn sha256Hex tables schema s₀ events row := by
  induction events using List.reverseRecOn generalizing i row with
  | nil =>
      obtain ⟨hlt, _⟩ := List.getElem?_eq_some_iff.mp hrow
      exact absurd hi (Nat.not_le_of_lt hlt)
  | append_singleton events e ih =>
      rw [after_append_singleton] at hrow
      rcases @voters_step sha256Hex tables schema (after sha256Hex tables schema s₀ events) e with
        heq | ⟨n, now, w, _, hw, _, hwrote⟩
      · rw [heq] at hrow
        exact (ih i row hrow hi).later (VoterRow.Becomes.refl row) e
      · generalize hrows : (step sha256Hex tables schema (after sha256Hex tables schema s₀ events) e).voters = rows
          at hrow hwrote
        cases hwrote with
        | updated =>
            simp only [List.getElem?_map, Option.map_eq_some_iff] at hrow
            obtain ⟨r, hr, rfl⟩ := hrow
            exact (ih i r hr hi).later (becomes_update w now r) e
        | inserted new =>
            rcases Nat.lt_or_ge i (after sha256Hex tables schema s₀ events).voters.length with hlt | hge
            · rw [List.getElem?_append_left hlt] at hrow
              exact (ih i row hrow hi).later (VoterRow.Becomes.refl row) e
            · rw [List.getElem?_append_right hge] at hrow
              obtain rfl := List.mem_singleton.mp (List.mem_of_getElem? hrow)
              obtain ⟨request, visit, m, hadmitted⟩ :=
                exists_admitted hidle events (.inl (List.mem_of_getElem? hw))
              have hlater := hadmitted.append [e]
              obtain ⟨req, rfl, rfl, hok⟩ := vouched_of_accept hlater.2
              exact ⟨m, visit, req, hlater.1, registered_of_admitted hok⟩

/-- Only the check of the birth date answers 422. -/
theorem not_reached_of_refused {visit : Visit} {req : RegisterVoterRequest} {rows : List VoterRow} {err : HttpError}
    (herr : handleRegisterVoter sha256Hex visit req rows = .error err) (hcode : err.code = 422) :
    ∃ dob, Date.parse req.dateOfBirth = some dob ∧
      ∀ d : Date, d.next = visit.today → ¬ Date.Reached (dob.year + 18) dob.month dob.day d := by
  simp only [handleRegisterVoter, bind_eq_error, require_eq_error, requireRole] at herr
  rcases herr with ⟨-, rfl⟩ | ⟨_, -, ⟨-, rfl⟩ | ⟨_, -, hbirth | ⟨_, -, ⟨-, rfl⟩ | ⟨_, -, ⟨-, rfl⟩ | ⟨_, -, hpure⟩⟩⟩⟩⟩
  · cases hcode
  · cases hcode
  · exact checkBirth_under_age hbirth hcode
  · cases hcode
  · cases hcode
  · cases hpure

def birthday : Visit := { newYear with today := ⟨2026, 12, 31, ⟨by omega, by omega⟩, ⟨by omega, by decide⟩⟩ }

variable (tables) in
/-- The ward, the LGA and the state of the voter are those of the polling unit. -/
def VoterRow.InPlace (r : VoterRow) : Prop := place? tables r.pollingUnitCode = some r.place

instance (r : VoterRow) : Decidable (r.InPlace tables) := inferInstanceAs (Decidable (_ = _))

variable (tables) in
def AllInPlace (s : Register) : Prop := ∀ r ∈ s.voters, r.InPlace tables

variable (tables schema) in
/-- A registration that goes through states the places of its polling unit, and who is reactivated stays in them. -/
def Write.KeepsPlaces (rows : List VoterRow) (now : Int) : Write → Prop
  | .insert row => (execute schema now rows (.insert row)).toBool = true → row.InPlace tables
  | .reactivate vin pollingUnitCode =>
      ∀ r ∈ rows, (Write.reactivate vin pollingUnitCode).selects r = true → place? tables pollingUnitCode = some r.place
  | _ => True

instance (rows : List VoterRow) (now : Int) : (w : Write) → Decidable (w.KeepsPlaces tables schema rows now)
  | .insert _ => inferInstanceAs (Decidable (_ → _))
  | .reactivate _ _ => inferInstanceAs (Decidable (∀ r ∈ rows, _ → _))
  | .collectPVC _ => .isTrue trivial
  | .markVoted _ _ => .isTrue trivial
  | .verify _ => .isTrue trivial
  | .transfer _ _ _ => .isTrue trivial
  | .merge _ _ => .isTrue trivial
  | .flag _ _ => .isTrue trivial
  | .erase _ => .isTrue trivial
  | .eraseSubject _ => .isTrue trivial

variable (tables schema) in
def KeepsPlaces (s : Register) : Event → Prop
  | .issue n now => ∀ w ∈ s.pending[n]?, w.KeepsPlaces tables schema s.voters now
  | _ => True

instance (s : Register) : (e : Event) → Decidable (KeepsPlaces tables schema s e)
  | .issue n now => inferInstanceAs (Decidable (∀ w ∈ s.pending[n]?, w.KeepsPlaces tables schema s.voters now))
  | .request _ _ => .isTrue trivial
  | .abandon _ => .isTrue trivial

variable (tables) in
/-- The transfers under way and on record carry the places of their units. -/
def Surveyed (s : Register) : Prop :=
  ∀ vin pollingUnitCode place, s.Holds (.transfer vin pollingUnitCode place) →
    place? tables pollingUnitCode = some place

theorem surveyed_step (s : Register) (e : Event) (h : Surveyed tables s) :
    Surveyed tables (step sha256Hex tables schema s e) := by
  intro vin pollingUnitCode place hholds
  rcases holds_step hholds with hholds | ⟨visit, request, -, haccept⟩
  · exact h vin pollingUnitCode place hholds
  · exact vouched_of_accept haccept

/-- An update keeps a row in place, or is a reactivation that may not. -/
theorem inPlace_update {w : Write} {now : Int} {r : VoterRow} (h : r.InPlace tables)
    (hsurveyed : ∀ vin pollingUnitCode place, w = .transfer vin pollingUnitCode place →
      place? tables pollingUnitCode = some place) :
    (w.update now r).InPlace tables ↔
      ∀ vin pollingUnitCode, w = .reactivate vin pollingUnitCode → w.selects r = true →
        place? tables pollingUnitCode = some r.place := by
  unfold Write.update
  by_cases hsel : w.selects r = true
  · rw [if_pos hsel]
    cases w with
    | reactivate vin pollingUnitCode =>
        constructor
        · rintro hplace _ _ heq -
          cases heq
          exact hplace
        · intro hplace
          exact hplace _ _ rfl hsel
    | transfer vin pollingUnitCode place =>
        refine iff_of_true (hsurveyed vin pollingUnitCode place rfl) ?_
        intro _ _ heq
        cases heq
    | _ =>
        refine iff_of_true h ?_
        intro _ _ heq
        cases heq
  · rw [if_neg hsel]
    exact iff_of_true h fun _ _ _ hsel' => absurd hsel' hsel

theorem allInPlace_step {s : Register} (e : Event) (hsurveyed : Surveyed tables s) (h : AllInPlace tables s) :
    AllInPlace tables (step sha256Hex tables schema s e) ↔ KeepsPlaces tables schema s e := by
  have hsame : (step sha256Hex tables schema s e).voters = s.voters →
      AllInPlace tables (step sha256Hex tables schema s e) := by
    intro heq r hr
    exact h r (heq ▸ hr)
  cases e with
  | request visit request =>
      refine iff_of_true (hsame ?_) trivial
      rcases @voters_step sha256Hex tables schema s (.request visit request) with heq | ⟨_, _, _, he, _⟩
      · exact heq
      · cases he
  | abandon n => exact iff_of_true (hsame rfl) trivial
  | issue n now =>
      cases hw : s.pending[n]? with
      | none =>
          refine iff_of_true (hsame (by simp only [step, hw])) ?_
          intro w hmem
          rw [hw] at hmem
          cases hmem
      | some w =>
          have hkeeps : KeepsPlaces tables schema s (.issue n now) ↔ w.KeepsPlaces tables schema s.voters now := by
            simp only [KeepsPlaces, hw, Option.mem_some_iff, forall_eq']
          have hstep : step sha256Hex tables schema s (.issue n now) = s.issue schema n now w := by
            simp only [step, hw]
          have htransfer : ∀ vin pollingUnitCode place, w = .transfer vin pollingUnitCode place →
              place? tables pollingUnitCode = some place := by
            rintro vin pollingUnitCode place rfl
            exact hsurveyed vin pollingUnitCode place (.inl (List.mem_of_getElem? hw))
          rw [hstep] at hsame ⊢
          rw [hkeeps]
          rcases @issue_cases schema s n now w with ⟨err, herr, hissue⟩ | ⟨rows, affected, hok, hwrote, hissue⟩
          · refine iff_of_true (hsame (by rw [hissue])) ?_
            cases w with
            | insert row => simp [Write.KeepsPlaces, herr, Except.toBool]
            | reactivate => cases herr
            | _ => trivial
          · rw [hissue]
            cases hwrote with
            | inserted row =>
                simp only [Write.KeepsPlaces, hok, AllInPlace, List.forall_mem_append, List.forall_mem_singleton,
                  Except.toBool]
                exact ⟨fun hall _ => hall.2, fun hrow => ⟨h, hrow trivial⟩⟩
            | updated _ hupdate =>
                have hall : AllInPlace tables
                    ⟨s.voters.map (w.update now), s.pending.eraseIdx n, s.answers ++ [⟨w, now, w.reply affected⟩]⟩ ↔
                    ∀ r ∈ s.voters, ∀ vin pollingUnitCode, w = .reactivate vin pollingUnitCode →
                      w.selects r = true → place? tables pollingUnitCode = some r.place := by
                  simp only [AllInPlace, List.forall_mem_map]
                  exact forall₂_congr fun r hr => inPlace_update (h r hr) htransfer
                rw [hall]
                cases w with
                | insert row => exact absurd rfl (hupdate row)
                | reactivate vin pollingUnitCode => simp [Write.KeepsPlaces]
                | _ => simp [Write.KeepsPlaces]

/-- The places of every voter are those of the polling unit throughout, if and only if every registration that goes
through states those of its unit and nobody is reactivated out of them. -/
theorem voters_in_place_iff {s₀ : Register} (hidle : Idle s₀) (hplaced : AllInPlace tables s₀) (events : List Event) :
    (∀ s ∈ Runs.visited (step sha256Hex tables schema) s₀ events, AllInPlace tables s) ↔
      Runs.AllSteps (step sha256Hex tables schema) (KeepsPlaces tables schema) s₀ events := by
  have hsurveyed : Surveyed tables s₀ := by
    intro vin pollingUnitCode place hholds
    rw [Register.Holds, hidle.pending, hidle.answers] at hholds
    simp at hholds
  exact Runs.forall_visited_iff (fun s e h => surveyed_step s e h) (fun s e hs h => allInPlace_step e hs h)
    hsurveyed hplaced events

/-- Two wards with a unit each. -/
def twoWards : Tables :=
  { Tables.empty with lgas := [⟨"L", "S"⟩], wards := [⟨"W", "L"⟩, ⟨"W2", "L"⟩],
                      pollingUnits := [⟨"U", "W", 500⟩, ⟨"U2", "W2", 500⟩] }

/-- A transfer takes the places of the new unit with it. -/
def transferred : List Event := [.request newYear (.transfer "VINAdaObi2008-1" "U2"), .issue 0 1]

/-- Back at the old unit, the voter is left in the ward of the other. -/
theorem voters_in_place_iff_reactivated :
    (∀ s ∈ Runs.visited (step id twoWards ⟨[], fun _ => true⟩) listed transferred, AllInPlace twoWards s) ∧
      ¬ ∀ s ∈ Runs.visited (step id twoWards ⟨[], fun _ => true⟩) listed
        (transferred ++ [.request newYear (.reactivate "VINAdaObi2008-1" "U"), .issue 0 2]), AllInPlace twoWards s := by
  have hlisted : AllInPlace twoWards listed := by
    simp only [AllInPlace, listed, List.forall_mem_singleton]
    decide +kernel
  rw [voters_in_place_iff ⟨rfl, rfl⟩ hlisted, voters_in_place_iff ⟨rfl, rfl⟩ hlisted]
  decide +kernel

end Inec.Voters
