import Mathlib.Data.String.Basic
import Inec.Lib.Delimited
import Inec.Lib.HexText
import Inec.Lib.Runs
import Inec.Ingestion.Payload
import Inec.Results.Effects

/-!
# Duplicates and conflicts

`applyResultTx` takes the figures for the stored ones if the hashes are equal. The hash of a row is that of
its figures when the row came from a submission, an ingestion or a correction; a row that came in as a form
EC8A has the hash of the form, which no figures have.

Among hashes of figures it is the written-out scores that count: they are sorted by party code, and neither
the codes nor the order of entries with one code are made unambiguous.
-/

namespace Inec

open Checks

variable (sha256Hex : String → String)

/-- The scores as they stand in the preimage of `computeEC8AHash`. -/
def scoresText (scores : List PartyVoteEntry) : String :=
  String.intercalate "," ((scores.insertionSort fun a b => a.partyCode ≤ b.partyCode).map fun ps =>
    ps.partyCode ++ ":" ++ toString ps.votes)

/-- The row came in as a form EC8A. -/
def FromForm (r : ResultRow) : Prop := ∃ form, r.ec8aHash = formHash sha256Hex form

section Claim

variable (env : Env) (db : Tables) (res : IngestedResult)

/-- A result for a unit that has one is a duplicate if the figures are the stored ones and a conflict if they are
not, and nothing is written. -/
def ComparesFigures : Prop :=
  ∀ existing, checkIngested db res = .ok () → liveResult? db res.electionId res.pollingUnitCode = some existing →
    ∃ outcome, applyResultTx sha256Hex env db res = .ok (outcome, existing.id, db) ∧
      (outcome = .duplicate ↔ (storedFigures db existing).Same res.figures) ∧
      (outcome = .conflict ↔ ¬(storedFigures db existing).Same res.figures)

/-- The stored row is not a form's, and its scores written out are the submitted ones written out exactly if they
are the same; or it is a form's, and the figures are others. -/
def TextsTell : Prop :=
  ∀ existing, checkIngested db res = .ok () → liveResult? db res.electionId res.pollingUnitCode = some existing →
    (FromForm sha256Hex existing → ¬(storedFigures db existing).Same res.figures) ∧
    (¬FromForm sha256Hex existing → existing.accreditedVoters = res.accreditedVoters →
      existing.rejectedVotes = res.rejectedVotes →
        (scoresText (partyEntries db existing.id) = scoresText res.partyScores ↔
          (partyEntries db existing.id).Perm res.partyScores))

end Claim

variable {sha256Hex}

/-! ### Hashes -/

theorem computeEC8AHash_eq (electionId : Int) (code : String) (scores : List PartyVoteEntry)
    (accredited rejected : Int) :
    computeEC8AHash sha256Hex electionId code scores accredited rejected =
      "sha256:" ++ sha256Hex (toString electionId ++ "|" ++ code ++ "|" ++ scoresText scores ++ "|" ++
        toString accredited ++ "|" ++ toString rejected) := rfl

/-- The preimage can be read from both ends: the election from the left, the two counts from the right. -/
theorem computeEC8AHash_eq_iff (hinj : Function.Injective sha256Hex) {electionId electionId' : Int}
    {code code' : String} {scores scores' : List PartyVoteEntry}
    {accredited accredited' rejected rejected' : Int} :
    computeEC8AHash sha256Hex electionId code scores accredited rejected =
        computeEC8AHash sha256Hex electionId' code' scores' accredited' rejected' ↔
      electionId = electionId' ∧ code ++ "|" ++ scoresText scores = code' ++ "|" ++ scoresText scores' ∧
        accredited = accredited' ∧ rejected = rejected' := by
  rw [computeEC8AHash_eq, computeEC8AHash_eq]
  constructor
  · intro h
    have hpreimage := hinj (String.toList_inj.mp (List.append_cancel_left
      (String.toList_append ▸ String.toList_append ▸ congrArg String.toList h)))
    have hchars := congrArg String.toList hpreimage
    have hbar : "|".toList = ['|'] := rfl
    have hnumber : ∀ n : Int, '|' ∉ (toString n).toList := Text.notMem_toString_int (by decide) (by decide)
    simp only [String.toList_append, hbar, List.append_assoc, List.cons_append, List.nil_append] at hchars
    obtain ⟨helection, hchars⟩ := Delimited.append_sep_inj_of_notMem_left hchars (hnumber _) (hnumber _)
    simp only [← List.append_assoc, ← List.cons_append] at hchars
    obtain ⟨hchars, hrejected⟩ := Delimited.append_sep_inj_of_notMem hchars (hnumber _) (hnumber _)
    obtain ⟨hline, haccredited⟩ := Delimited.append_sep_inj_of_notMem hchars (hnumber _) (hnumber _)
    refine ⟨Text.toString_int_inj helection, String.toList_inj.mp ?_, Text.toString_int_inj haccredited,
      Text.toString_int_inj hrejected⟩
    simpa only [String.toList_append, hbar, List.append_assoc, List.singleton_append] using hline
  · rintro ⟨rfl, hline, rfl, rfl⟩
    have hsplit (code scores : String) : toString electionId ++ "|" ++ code ++ "|" ++ scores =
        toString electionId ++ "|" ++ (code ++ "|" ++ scores) := by
      simp only [String.append_assoc]
    rw [hsplit code, hsplit code', hline]

/-- Two hashes for one unit are equal exactly if the written-out scores and the two counts are. -/
theorem computeEC8AHash_inj_iff (hinj : Function.Injective sha256Hex) (electionId : Int) (code : String)
    {scores scores' : List PartyVoteEntry} {accredited accredited' rejected rejected' : Int} :
    computeEC8AHash sha256Hex electionId code scores accredited rejected =
        computeEC8AHash sha256Hex electionId code scores' accredited' rejected' ↔
      scoresText scores = scoresText scores' ∧ accredited = accredited' ∧ rejected = rejected' := by
  rw [computeEC8AHash_eq_iff hinj]
  constructor
  · rintro ⟨-, hline, hcounts⟩
    have hchars := congrArg String.toList hline
    rw [String.toList_append, @String.toList_append (code ++ "|")] at hchars
    exact ⟨String.toList_inj.mp (List.append_cancel_left hchars), hcounts⟩
  · rintro ⟨hscores, hcounts⟩
    exact ⟨rfl, congrArg (code ++ "|" ++ ·) hscores, hcounts⟩

/-- A form is written as an object, and the preimage of figures begins with a number. -/
theorem formHash_ne_computeEC8AHash (hinj : Function.Injective sha256Hex) (form : FormEC8A) (electionId : Int)
    (code : String) (scores : List PartyVoteEntry) (accredited rejected : Int) :
    formHash sha256Hex form ≠ computeEC8AHash sha256Hex electionId code scores accredited rejected := by
  rw [computeEC8AHash_eq, formHash]
  intro h
  have hpreimage := hinj (String.toList_inj.mp (List.append_cancel_left
    (String.toList_append ▸ String.toList_append ▸ congrArg String.toList h)))
  have hchars := congrArg String.toList hpreimage
  obtain ⟨c, rest, hnumber, hc⟩ := Text.exists_toString_int_cons electionId
  simp only [String.toList_append, FormEC8A.json, canonicalJSON, hnumber, List.cons_append] at hchars
  have hbrace : c = Char.ofNat 123 := (List.cons.inj hchars).1.symm
  rw [hbrace] at hc
  exact absurd hc (by decide)

/-! ### Figures -/

theorem storedFigures_scores (db : Tables) (r : ResultRow) :
    (storedFigures db r).partyScores = scorePairs (partyEntries db r.id) := by
  rw [scorePairs, partyEntries, List.map_map]
  rfl

theorem scorePairs_perm_iff {scores scores' : List PartyVoteEntry} :
    (scorePairs scores).Perm (scorePairs scores') ↔ scores.Perm scores' := by
  refine List.map_perm_map_iff ?_
  intro a b h
  cases a
  cases b
  exact PartyVoteEntry.mk.injEq .. ▸ Prod.mk.inj h

/-- For one unit the figures are the same if the scores are, and the two counts. -/
theorem same_iff {db : Tables} {res : IngestedResult} {existing : ResultRow}
    (hlive : liveResult? db res.electionId res.pollingUnitCode = some existing) :
    (storedFigures db existing).Same res.figures ↔
      (partyEntries db existing.id).Perm res.partyScores ∧ existing.accreditedVoters = res.accreditedVoters ∧
        existing.rejectedVotes = res.rejectedVotes := by
  have hkey := List.find?_some hlive
  rw [Bool.and_eq_true, beq_iff_eq] at hkey
  obtain ⟨helection, hcode⟩ := Prod.mk.inj hkey.1
  rw [Figures.Same, storedFigures_scores]
  constructor
  · rintro ⟨-, -, hscores, hcounts⟩
    exact ⟨scorePairs_perm_iff.mp hscores, hcounts⟩
  · rintro ⟨hscores, hcounts⟩
    exact ⟨helection, hcode, scorePairs_perm_iff.mpr hscores, hcounts⟩

/-! ### Plain codes -/

/-- No party twice, and no comma in a code. -/
def PlainCodes (scores : List PartyVoteEntry) : Prop :=
  (scores.map (·.partyCode)).Nodup ∧ ∀ entry ∈ scores, ',' ∉ entry.partyCode.toList

instance (scores : List PartyVoteEntry) : Decidable (PlainCodes scores) := inferInstanceAs (Decidable (_ ∧ _))

def PartyVoteEntry.text (entry : PartyVoteEntry) : String := entry.partyCode ++ ":" ++ toString entry.votes

theorem PartyVoteEntry.text_inj {a b : PartyVoteEntry} (h : a.text = b.text) : a = b := by
  have hchars := congrArg String.toList h
  have hcolon : ":".toList = [':'] := rfl
  have hnumber : ∀ n : Int, ':' ∉ (toString n).toList := Text.notMem_toString_int (by decide) (by decide)
  simp only [PartyVoteEntry.text, String.toList_append, hcolon, List.append_assoc, List.singleton_append] at hchars
  obtain ⟨hcode, hvotes⟩ := Delimited.append_sep_inj_of_notMem hchars (hnumber _) (hnumber _)
  cases a
  cases b
  rw [PartyVoteEntry.mk.injEq]
  exact ⟨String.toList_inj.mp hcode, Text.toString_int_inj hvotes⟩

theorem PartyVoteEntry.comma_notMem_text {entry : PartyVoteEntry} (h : ',' ∉ entry.partyCode.toList) :
    ',' ∉ entry.text.toList := by
  have hcolon : ":".toList = [':'] := rfl
  have hnumber := @Text.notMem_toString_int ',' (by decide) (by decide) entry.votes
  simp only [PartyVoteEntry.text, String.toList_append, hcolon, List.mem_append, List.mem_singleton, not_or]
  exact ⟨⟨h, by decide⟩, hnumber⟩

/-- Plain codes make the written-out scores the scores, up to their order. -/
theorem scoresText_eq_iff {scores scores' : List PartyVoteEntry} (h : PlainCodes scores) (h' : PlainCodes scores') :
    scoresText scores = scoresText scores' ↔ scores.Perm scores' := by
  have htotal : Std.Total fun a b : PartyVoteEntry => a.partyCode ≤ b.partyCode :=
    ⟨fun a b => le_total a.partyCode b.partyCode⟩
  have htrans : IsTrans PartyVoteEntry fun a b => a.partyCode ≤ b.partyCode := ⟨fun _ _ _ => le_trans⟩
  have hperm := fun l : List PartyVoteEntry => List.perm_insertionSort (fun a b => a.partyCode ≤ b.partyCode) l
  constructor
  · intro htext
    have hfields : ∀ l : List PartyVoteEntry, PlainCodes l → ∀ chars ∈ ((l.insertionSort fun a b =>
        a.partyCode ≤ b.partyCode).map PartyVoteEntry.text).map String.toList, ',' ∉ chars ∧ chars ≠ [] := by
      intro l hl chars hchars
      obtain ⟨text, htext, rfl⟩ := List.mem_map.mp hchars
      obtain ⟨entry, hentry, rfl⟩ := List.mem_map.mp htext
      refine ⟨PartyVoteEntry.comma_notMem_text (hl.2 entry ((hperm l).subset hentry)), ?_⟩
      simp [PartyVoteEntry.text]
    have hchars := congrArg String.toList htext
    rw [scoresText, scoresText, String.toList_intercalate, String.toList_intercalate] at hchars
    have hlists := Delimited.intercalate_inj (fun f hf => (hfields scores h f hf).1)
      (fun f hf => (hfields scores' h' f hf).1) (fun f hf => (hfields scores h f hf).2)
        (fun f hf => (hfields scores' h' f hf).2) hchars
    have htexts := (List.map_inj_right fun _ _ => String.toList_inj.mp).mp hlists
    have hsorted := (List.map_inj_right fun _ _ => PartyVoteEntry.text_inj).mp htexts
    exact (hperm scores).symm.trans (hsorted ▸ hperm scores')
  · intro hscores
    have hsorted : scores.insertionSort (fun a b => a.partyCode ≤ b.partyCode) =
        scores'.insertionSort (fun a b => a.partyCode ≤ b.partyCode) := by
      refine List.Perm.eq_of_pairwise ?_ (List.pairwise_insertionSort _ _) (List.pairwise_insertionSort _ _)
        ((hperm scores).trans (hscores.trans (hperm scores').symm))
      -- entries of one code are one entry
      intro a b ha hb hab hba
      have hb := hscores.symm.subset ((hperm scores').subset hb)
      exact List.inj_on_of_nodup_map h.1 ((hperm scores).subset ha) hb (le_antisymm hab hba)
    rw [scoresText, hsorted, scoresText]

/-! ### The comparison -/

/-- The outcome is the comparison of two hashes. -/
theorem comparesFigures_iff_hash {env : Env} {db : Tables} {res : IngestedResult} :
    ComparesFigures sha256Hex env db res ↔
      ∀ existing, checkIngested db res = .ok () →
        liveResult? db res.electionId res.pollingUnitCode = some existing →
          (existing.ec8aHash = computeEC8AHash sha256Hex res.electionId res.pollingUnitCode res.partyScores
          res.accreditedVoters res.rejectedVotes ↔ (storedFigures db existing).Same res.figures) := by
  refine forall_congr' fun existing => forall_congr' fun hchecked => forall_congr' fun hlive => ?_
  have hrun : applyResultTx sha256Hex env db res =
    .ok (if existing.ec8aHash == computeEC8AHash sha256Hex res.electionId
      res.pollingUnitCode res.partyScores res.accreditedVoters res.rejectedVotes then .duplicate else .conflict,
      existing.id, db) := by
    simp only [applyResultTx, hchecked, hlive]
    rfl
  by_cases hhash : existing.ec8aHash = computeEC8AHash sha256Hex res.electionId res.pollingUnitCode res.partyScores
      res.accreditedVoters res.rejectedVotes
  · rw [hrun, if_pos (beq_iff_eq.mpr hhash)]
    simp [hhash]
  · rw [hrun, if_neg (fun h => hhash (beq_iff_eq.mp h))]
    simp [hhash]

/-- A row has the hash of a form, or that of its own figures. -/
def HashedAs (sha256Hex : String → String) (r : ResultRow) (scores : List PartyVoteEntry) : Prop :=
  FromForm sha256Hex r ∨
    r.ec8aHash = computeEC8AHash sha256Hex r.electionId r.pollingUnitCode scores r.accreditedVoters r.rejectedVotes

theorem Inserts.hashedAs {env : Env} {db base : Tables} {op : Op} {row : ResultRow} {scores : List PartyVoteEntry}
    (h : Inserts sha256Hex env db op base row scores) : HashedAs sha256Hex row scores := by
  cases h with
  | ingested => exact Or.inr rfl
  | submitted => exact Or.inr rfl
  | form => exact Or.inl ⟨_, rfl⟩
  | corrected => exact Or.inr rfl

theorem HashedAs.sameSheet {r r' : ResultRow} {scores : List PartyVoteEntry} (hsheet : r.SameSheet r')
    (h : HashedAs sha256Hex r scores) : HashedAs sha256Hex r' scores := by
  rw [HashedAs, FromForm, hsheet]
  exact h

theorem step_hashedAs (d : Database) (request : Request) (h : SheetsHold (HashedAs sha256Hex) d.tables) :
    SheetsHold (HashedAs sha256Hex) (step sha256Hex d request).tables := by
  apply step_sheetsHold h
  · intro r r' scores hsheet hhash
    exact hhash.sameSheet hsheet
  · intro base row scores insertion
    exact insertion.hashedAs

theorem visited_hashedAs {start : Database} (hnone : NoResults start.tables) (requests : List Request) :
    ∀ d ∈ Runs.visited (step sha256Hex) start requests, SheetsHold (HashedAs sha256Hex) d.tables :=
  @Runs.forall_visited_of_step Database Request _ (fun d => SheetsHold (HashedAs sha256Hex) d.tables) step_hashedAs
    start (hnone.sheetsHold _) requests

/-- Plain codes are told apart, for rows with the hash of their figures. -/
theorem textsTell_of_plainCodes (hinj : Function.Injective sha256Hex) {db : Tables} {res : IngestedResult}
    (hstored : ∀ r ∈ db.results, r.ec8aHash = computeEC8AHash sha256Hex r.electionId r.pollingUnitCode
      (partyEntries db r.id) r.accreditedVoters r.rejectedVotes ∧ PlainCodes (partyEntries db r.id))
    (hcodes : PlainCodes res.partyScores) : TextsTell sha256Hex db res := by
  intro existing _ hlive
  obtain ⟨hhash, hplain⟩ := hstored existing (List.mem_of_find?_eq_some hlive)
  refine ⟨?_, fun _ _ _ => scoresText_eq_iff hplain hcodes⟩
  rintro ⟨form, hform⟩
  exact absurd (hform.symm.trans hhash) (formHash_ne_computeEC8AHash hinj _ _ _ _ _ _)

section Mistaken

/-- A result of the unit for ingestion. -/
def unitResult (scores : List PartyVoteEntry) : IngestedResult where
  electionId := 1
  pollingUnitCode := "PU-1"
  partyScores := scores
  accreditedVoters := 150
  rejectedVotes := 0
  submittedBy := 7
  source := "offline_sync"
  sourceRef := "BVAS-1"
  idempotencyKey := ""
  overrideReason := ""

/-- The form of the unit with the same figures. -/
def unitForm (scores : List PartyVoteEntry) : FormEC8A :=
  { formOf 1 "PU-1" 200 scores 150 0 with presidingOfficerId := "7" }

def ingestUnit (scores : List PartyVoteEntry) : Request :=
  ⟨.plain 7 "officer" .admin 0, .ingest (unitResult scores)⟩

/-- Whether a stored row is mistaken is a matter of computing both sides. -/
theorem not_comparesFigures {env : Env} {db : Tables} {res : IngestedResult} {existing : ResultRow}
    (hchecked : checkIngested db res = .ok ()) (hlive :
    liveResult? db res.electionId res.pollingUnitCode = some existing)
    (hwrong : ¬(existing.ec8aHash = computeEC8AHash sha256Hex res.electionId res.pollingUnitCode res.partyScores
      res.accreditedVoters res.rejectedVotes ↔ (storedFigures db existing).Same res.figures)) :
    ¬ComparesFigures sha256Hex env db res := by
  rw [comparesFigures_iff_hash]
  intro h
  exact hwrong (h existing hchecked hlive)

end Mistaken

end Inec
