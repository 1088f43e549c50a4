import Mathlib.Data.List.AList
import Inec.Request
import Inec.Tally.KeyPair

/-!
# The tally service

services/homomorphic-tally/main.py with its PostgreSQL store. The handlers run on one event loop, so that what
stands between two awaits is one step: a submission inserts its record, and then adds and upserts one party
after the other, with the steps of others in between. The upserts of several submissions reach the database in
any order. A start makes a key pair and loads the two tables; what was under way before it is cut off.

`submissions` keeps every call of the handler with how far it is, and `contributions` every ciphertext that has
been taken into a tally. No step of the code reads what a call that has ended leaves there.
-/

namespace Inec.Tally

open Checks

/-! ### Data -/

/-- The request of a submission, with `party_votes` as its items. -/
structure EncryptedVote where
  electionId : String
  pollingUnitId : String
  partyVotes : List (String × Int)
  deriving DecidableEq, Repr

/-- The key of its record. -/
def EncryptedVote.record (vote : EncryptedVote) : String × String := (vote.electionId, vote.pollingUnitId)

inductive Phase
  /-- The record is inserted, and these counts are still to be added. -/
  | adding (rest : List (String × Int))
  /-- The upsert of a party is under way. -/
  | persisting (party : String) (ciphertext : Nat) (rest : List (String × Int))
  | accepted
  | refused (status : Nat)
  /-- Answered with a 500, or cut off by a restart. -/
  | failed
  deriving DecidableEq, Repr

/-- The handler is between its record and its answer. -/
def Phase.underWay : Phase → Bool
  | .adding _ | .persisting .. => true
  | .accepted | .refused _ | .failed => false

structure Submission where
  vote : EncryptedVote
  phase : Phase
  deriving DecidableEq, Repr

/-- A ciphertext that a submission has taken into a tally. -/
structure Contribution where
  submission : Nat
  electionId : String
  party : String
  count : Int
  ciphertext : Nat
  key : PaillierPublicKey
  deriving DecidableEq, Repr

/-- The ciphertexts of one election by party. -/
abbrev PartyTallies : Type := AList fun _ : String => Nat

/-- `encrypted_tallies`. -/
abbrev EncryptedTallies : Type := AList fun _ : String => PartyTallies

/-- The table `tally`, by its primary key. -/
abbrev TallyTable : Type := AList fun _ : String × String => Nat

structure State where
  tally : TallyTable
  tallySubmissions : List (String × String)
  privateKey : Option PaillierPrivateKey
  encryptedTallies : EncryptedTallies
  submissions : List Submission
  contributions : List Contribution

/-- Before the first start. -/
def start : State := ⟨∅, [], none, ∅, [], []⟩

/-- How a statement fails: it is not executed, or its answer is lost. -/
inductive Fault
  | refused
  | unanswered
  deriving DecidableEq, Repr

inductive Input
  /-- A submission up to its record. -/
  | submit (vote : EncryptedVote) (fault : Option Fault)
  /-- A handler that goes on after its record, or after an upsert, with what it draws. -/
  | resume (index : Nat) (draws : List Nat)
  /-- The upsert of a handler. -/
  | persist (index : Nat) (fault : Option Fault)
  /-- The end of the process and its next start. -/
  | restart (draw : KeyDraw)

/-! ### The tallies in memory -/

namespace EncryptedTallies

variable (tallies : EncryptedTallies)

def ciphertext? (electionId party : String) : Option Nat := (tallies.lookup electionId).bind (·.lookup party)

/-- `if election_id not in encrypted_tallies: encrypted_tallies[election_id] = {}` -/
def opened (electionId : String) : EncryptedTallies :=
  if (tallies.lookup electionId).isSome then tallies else tallies.insert electionId ∅

/-- `encrypted_tallies[election_id][party] = ciphertext` -/
def set (electionId party : String) (ciphertext : Nat) : EncryptedTallies :=
  tallies.insert electionId (((tallies.lookup electionId).getD ∅).insert party ciphertext)

/-- The loop of `_init_tally_store` over the rows of the table. -/
def load (rows : List (Sigma fun _ : String × String => Nat)) : EncryptedTallies :=
  rows.foldl (fun loaded row => loaded.set row.1.1 row.1.2 row.2) tallies

end EncryptedTallies

/-! ### Steps -/

namespace State

variable (s : State)

def ciphertext? (electionId party : String) : Option Nat := s.encryptedTallies.ciphertext? electionId party

def setPhase (index : Nat) (vote : EncryptedVote) (phase : Phase) : State :=
  { s with submissions := s.submissions.set index ⟨vote, phase⟩ }

/-- A call that has come as far as `phase`. -/
def call (vote : EncryptedVote) (phase : Phase) : State :=
  { s with submissions := s.submissions ++ [⟨vote, phase⟩] }

/-- `_record_submission`: `INSERT ... ON CONFLICT DO NOTHING`. -/
def insertRecord (vote : EncryptedVote) : State :=
  if vote.record ∈ s.tallySubmissions then s else { s with tallySubmissions := s.tallySubmissions ++ [vote.record] }

/-- `submit_encrypted_vote` as far as its record. -/
def submit (vote : EncryptedVote) (fault : Option Fault) : State :=
  match s.privateKey, fault with
  | none, _ => s.call vote (.refused 503)
  | some _, some .refused => s.call vote .failed
  | some _, some .unanswered => (s.insertRecord vote).call vote .failed
  | some _, none =>
      if vote.record ∈ s.tallySubmissions then s.call vote (.refused 409)
      else (s.insertRecord vote).call vote (.adding vote.partyVotes)

/-- What a party's tally becomes when a ciphertext is added. -/
def added (key : PaillierPublicKey) (old : Option Nat) (ciphertext : Nat) : Nat :=
  match old with
  | some old => key.addEncrypted old ciphertext
  | none => ciphertext

/-- The handler adds a ciphertext and hands the sum to `_persist_tally`. -/
def add (index : Nat) (vote : EncryptedVote) (key : PaillierPublicKey) (party : String) (count : Int)
    (ciphertext : Nat) (rest : List (String × Int)) : State :=
  let total := added key (s.ciphertext? vote.electionId party) ciphertext
  { s.setPhase index vote (.persisting party total rest) with
    encryptedTallies := (s.encryptedTallies.opened vote.electionId).set vote.electionId party total
    contributions := s.contributions ++ [⟨index, vote.electionId, party, count, ciphertext, key⟩] }

/-- The handler, from one await to the next. -/
def resume (index : Nat) (vote : EncryptedVote) (key : PaillierPublicKey) (draws : List Nat) :
    List (String × Int) → State
  | [] => { s.setPhase index vote .accepted with encryptedTallies := s.encryptedTallies.opened vote.electionId }
  | (party, count) :: rest =>
      match key.encrypt count draws with
      | none => s
      | some (.error _) =>
          { s.setPhase index vote .failed with encryptedTallies := s.encryptedTallies.opened vote.electionId }
      | some (.ok ciphertext) => s.add index vote key party count ciphertext rest

/-- `_persist_tally`: `INSERT ... ON CONFLICT DO UPDATE`. -/
def upsert (electionId party : String) (ciphertext : Nat) : State :=
  { s with tally := s.tally.insert (electionId, party) ciphertext }

def persist (index : Nat) (vote : EncryptedVote) (party : String) (ciphertext : Nat) (rest : List (String × Int)) :
    Option Fault → State
  | none => (s.upsert vote.electionId party ciphertext).setPhase index vote (.adding rest)
  | some .refused => s.setPhase index vote .failed
  | some .unanswered => (s.upsert vote.electionId party ciphertext).setPhase index vote .failed

/-- What the end of the process leaves of the calls. -/
def cutOff (submission : Submission) : Submission :=
  if submission.phase.underWay then { submission with phase := .failed } else submission

/-- `startup`. -/
def restart (draw : KeyDraw) : State :=
  let submissions := s.submissions.map cutOff
  match draw.generate with
  | .error _ => { s with privateKey := none, encryptedTallies := ∅, submissions := submissions }
  | .ok key =>
      { s with
        privateKey := some key
        encryptedTallies := EncryptedTallies.load ∅ s.tally.entries
        submissions := submissions }

end State

def step (s : State) : Input → State
  | .submit vote fault => s.submit vote fault
  | .resume index draws =>
      match s.submissions[index]?, s.privateKey with
      | some ⟨vote, .adding rest⟩, some key => s.resume index vote key.publicKey draws rest
      | _, _ => s
  | .persist index fault =>
      match s.submissions[index]? with
      | some ⟨vote, .persisting party ciphertext rest⟩ => s.persist index vote party ciphertext rest fault
      | _ => s
  | .restart draw => s.restart draw

/-! ### Decryption -/

structure FinalTally where
  electionId : String
  results : List (String × Nat)
  totalVotes : Nat
  deriving DecidableEq, Repr

/-- `decrypt_final_tally`, with the tokens of the environment and the one of the request. -/
def State.decryptFinalTally (s : State) (expectedTokens : List String) (token electionId : String) :
    Except HttpError FinalTally := do
  let key ← fetch s.privateKey ⟨503, "Private key not available"⟩
  require (!expectedTokens.isEmpty) ⟨503, "tally decryption token not configured (set TALLY_DECRYPT_TOKEN)"⟩
  require (expectedTokens.contains token) ⟨403, "Unauthorized decryption attempt"⟩
  let tallies ← fetch (s.encryptedTallies.lookup electionId) ⟨404, "No tally found for this election"⟩
  let results := tallies.entries.map fun entry => (entry.1, key.decrypt entry.2)
  return ⟨electionId, results, (results.map (·.2)).sum⟩

/-! ### Lookups -/

namespace EncryptedTallies

variable (tallies : EncryptedTallies)

@[simp] theorem ciphertext?_empty (electionId party : String) : ciphertext? ∅ electionId party = none := rfl

@[simp] theorem ciphertext?_opened (opening electionId party : String) :
    (tallies.opened opening).ciphertext? electionId party = tallies.ciphertext? electionId party := by
  unfold opened
  split
  · rfl
  · rename_i hnone
    rw [Bool.not_eq_true, Option.isSome_eq_false_iff, Option.isNone_iff_eq_none] at hnone
    rw [ciphertext?, ciphertext?]
    by_cases heq : electionId = opening
    · subst heq
      rw [AList.lookup_insert, hnone]
      rfl
    · rw [AList.lookup_insert_ne heq]

theorem ciphertext?_set (electionId party : String) (ciphertext : Nat) (electionId' party' : String) :
    (tallies.set electionId party ciphertext).ciphertext? electionId' party' =
      if (electionId', party') =
        (electionId, party) then some ciphertext else tallies.ciphertext? electionId' party' := by
  rw [ciphertext?, ciphertext?, set]
  by_cases helection : electionId' = electionId
  · subst helection
    rw [AList.lookup_insert]
    by_cases hparty : party' = party
    · subst hparty
      rw [if_pos rfl]
      exact AList.lookup_insert _
    · rw [if_neg fun h => hparty (Prod.mk.inj h).2]
      show AList.lookup party' _ = _
      rw [AList.lookup_insert_ne hparty]
      cases tallies.lookup electionId' with
      | none => rfl
      | some parties => rfl
  · rw [AList.lookup_insert_ne helection, if_neg fun h => helection (Prod.mk.inj h).1]

/-- Loading puts every row at its place and leaves the rest. -/
theorem ciphertext?_load (rows : List (Sigma fun _ : String × String => Nat)) (hrows : rows.NodupKeys)
    (electionId party : String) :
    (tallies.load rows).ciphertext? electionId party =
      (rows.dlookup (electionId, party)).or (tallies.ciphertext? electionId party) := by
  induction rows generalizing tallies with
  | nil => rfl
  | cons row rest ih =>
      obtain ⟨hnew, hrest⟩ := List.nodupKeys_cons.mp hrows
      rw [load, List.foldl_cons]
      show ((tallies.set row.1.1 row.1.2 row.2).load rest).ciphertext? electionId party = _
      rw [ih _ hrest, ciphertext?_set]
      by_cases hkey : (electionId, party) = (row.1.1, row.1.2)
      · have hrow : row = ⟨(electionId, party), row.2⟩ := by rw [hkey]
        have hnone : rest.dlookup (electionId, party) = none := by
          rw [List.dlookup_eq_none, hkey]
          exact hnew
        rw [hnone, if_pos hkey, hrow, List.dlookup_cons_eq]
        rfl
      · rw [if_neg hkey, List.dlookup_cons_ne rest row hkey]

end EncryptedTallies

end Inec.Tally
