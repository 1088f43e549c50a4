import Inec.Lib.Rows
import Inec.Store.Schema

/-!
# Writes and constraints

The writes the handlers make to elections and results, the unique constraints the migrations put on
those tables, and the fact that a write which respects its own preconditions keeps them.

`SameCore` relates databases that agree on the tables elections and collation are computed from. A
handler also writes evidence, dispute, correction and audit rows; `SameCore` is how its effect is
stated without them.
-/

namespace Inec

namespace Tables

def updateElection (db : Tables) (id : Int) (f : Election → Election) : Tables :=
  { db with elections := Rows.update (·.id) id f db.elections }

def addElection (db : Tables) (e : Election) : Tables := { db with elections := db.elections ++ [e] }

def logState (db : Tables) (row : StateLogRow) : Tables :=
  { db with electionStateLog := db.electionStateLog ++ [row] }

def addScopes (db : Tables) (scopes : List RerunScope) : Tables :=
  { db with rerunScopes := db.rerunScopes ++ scopes }

def updateResult (db : Tables) (id : Int) (f : ResultRow → ResultRow) : Tables :=
  { db with results := Rows.update (·.id) id f db.results }

def addResult (db : Tables) (row : ResultRow) (scores : List (String × Int)) : Tables :=
  { db with
    results := db.results ++ [row]
    resultPartyScores := db.resultPartyScores ++ scores.map fun s => ⟨row.id, s.1, s.2⟩ }

def updateDispute (db : Tables) (id : Int) (f : Dispute → Dispute) : Tables :=
  { db with disputes := Rows.update (·.id) id f db.disputes }

/-- The two databases agree on every table that elections and collation are computed from. -/
structure SameCore (db db' : Tables) : Prop where
  states : db'.states = db.states
  lgas : db'.lgas = db.lgas
  wards : db'.wards = db.wards
  pollingUnits : db'.pollingUnits = db.pollingUnits
  elections : db'.elections = db.elections
  electionStateLog : db'.electionStateLog = db.electionStateLog
  rerunScopes : db'.rerunScopes = db.rerunScopes
  results : db'.results = db.results
  resultPartyScores : db'.resultPartyScores = db.resultPartyScores

theorem SameCore.refl (db : Tables) : SameCore db db := ⟨rfl, rfl, rfl, rfl, rfl, rfl, rfl, rfl, rfl⟩

theorem SameCore.trans {db db' db'' : Tables} (h : SameCore db db') (h' : SameCore db' db'') :
    SameCore db db'' where
  states := h'.states.trans h.states
  lgas := h'.lgas.trans h.lgas
  wards := h'.wards.trans h.wards
  pollingUnits := h'.pollingUnits.trans h.pollingUnits
  elections := h'.elections.trans h.elections
  electionStateLog := h'.electionStateLog.trans h.electionStateLog
  rerunScopes := h'.rerunScopes.trans h.rerunScopes
  results := h'.results.trans h.results
  resultPartyScores := h'.resultPartyScores.trans h.resultPartyScores

/-! ### Constraints -/

/-- The keys of the rows `results_canonical_pu_unique` covers. -/
def liveKeys (db : Tables) : List (Int × String) :=
  (db.results.filter fun r => r.status.live).map ResultRow.key

/-- The primary keys and unique constraints of the migrations. -/
structure Constraints (db : Tables) : Prop where
  electionIds : (db.elections.map (·.id)).Nodup
  resultIds : (db.results.map (·.id)).Nodup
  liveResults : db.liveKeys.Nodup
  pollingUnitCodes : (db.pollingUnits.map (·.code)).Nodup
  wardCodes : (db.wards.map (·.code)).Nodup
  lgaCodes : (db.lgas.map (·.code)).Nodup

instance (db : Tables) : Decidable db.Constraints :=
  decidable_of_iff
    ((db.elections.map (·.id)).Nodup ∧ (db.results.map (·.id)).Nodup ∧ db.liveKeys.Nodup ∧
      (db.pollingUnits.map (·.code)).Nodup ∧ (db.wards.map (·.code)).Nodup ∧ (db.lgas.map (·.code)).Nodup)
    ⟨fun ⟨he, hr, hl, hp, hw, hg⟩ => ⟨he, hr, hl, hp, hw, hg⟩,
      fun h => ⟨h.electionIds, h.resultIds, h.liveResults, h.pollingUnitCodes, h.wardCodes, h.lgaCodes⟩⟩

variable {db db' : Tables}

theorem election?_eq_some (h : db.Constraints) {id : Int} {e : Election} :
    db.election? id = some e ↔ e ∈ db.elections ∧ e.id = id :=
  Rows.find?_key_eq_some_iff h.electionIds

theorem mem_of_election? {id : Int} {e : Election} (h : db.election? id = some e) :
    e ∈ db.elections ∧ e.id = id := Rows.find?_key h

theorem mem_of_result? {id : Int} {r : ResultRow} (h : db.result? id = some r) :
    r ∈ db.results ∧ r.id = id := Rows.find?_key h

/-- A row that was found is found by its own key. -/
theorem result?_id {id : Int} {r : ResultRow} (h : db.result? id = some r) : db.result? r.id = some r := by
  rw [(mem_of_result? h).2]
  exact h

/-- A write to one election puts the written row in its place. -/
theorem mem_updateElection (h : db.Constraints) {id : Int} {e : Election} {f : Election → Election}
    (he : db.election? id = some e) {e' : Election} :
    e' ∈ (db.updateElection id f).elections ↔ e' = f e ∨ (e' ∈ db.elections ∧ e'.id ≠ id) := by
  obtain ⟨hmem, hid⟩ := mem_of_election? he
  rw [updateElection, Rows.mem_update]
  refine or_congr_left ⟨?_, ?_⟩
  · rintro ⟨e₀, he₀, hid₀, rfl⟩
    rw [Rows.eq_of_key_eq h.electionIds he₀ hmem (hid₀.trans hid.symm)]
  · rintro rfl
    exact ⟨e, hmem, hid, rfl⟩

/-- Live results of one election and polling unit are one row. -/
theorem eq_of_live_of_key (h : db.Constraints) {r r' : ResultRow} (hr : r ∈ db.results)
    (hr' : r' ∈ db.results) (hlive : r.status.live = true) (hlive' : r'.status.live = true)
    (hkey : r.key = r'.key) : r = r' :=
  Rows.eq_of_key_eq h.liveResults (List.mem_filter.mpr ⟨hr, hlive⟩) (List.mem_filter.mpr ⟨hr', hlive'⟩) hkey

theorem Constraints.sameCore (h : db.Constraints) (hsame : SameCore db db') : db'.Constraints where
  electionIds := hsame.elections ▸ h.electionIds
  resultIds := hsame.results ▸ h.resultIds
  liveResults := by
    rw [liveKeys, hsame.results]
    exact h.liveResults
  pollingUnitCodes := hsame.pollingUnits ▸ h.pollingUnitCodes
  wardCodes := hsame.wards ▸ h.wardCodes
  lgaCodes := hsame.lgas ▸ h.lgaCodes

theorem Constraints.updateElection (h : db.Constraints) {id : Int} {f : Election → Election}
    (hf : ∀ e, (f e).id = e.id) : (db.updateElection id f).Constraints :=
  { h with
    electionIds := by
      rw [Tables.updateElection, Rows.map_update fun e _ _ => hf e]
      exact h.electionIds }

theorem Constraints.logState (h : db.Constraints) (row : StateLogRow) : (db.logState row).Constraints :=
  ⟨h.electionIds, h.resultIds, h.liveResults, h.pollingUnitCodes, h.wardCodes, h.lgaCodes⟩

theorem Constraints.addScopes (h : db.Constraints) (scopes : List RerunScope) :
    (db.addScopes scopes).Constraints :=
  ⟨h.electionIds, h.resultIds, h.liveResults, h.pollingUnitCodes, h.wardCodes, h.lgaCodes⟩

theorem Constraints.addElection (h : db.Constraints) {e : Election}
    (hid : e.id ∉ db.elections.map (·.id)) : (db.addElection e).Constraints :=
  { h with
    electionIds := by
      rw [Tables.addElection, List.map_append, List.map_singleton, List.nodup_append_comm]
      exact List.nodup_cons.mpr ⟨hid, h.electionIds⟩ }

theorem Constraints.updateResult (h : db.Constraints) {id : Int} {f : ResultRow → ResultRow}
    (hf : ∀ r, (f r).id = r.id ∧ (f r).key = r.key)
    (hlive : ∀ r ∈ db.results, r.id = id → (f r).status.live = true → r.status.live = true) :
    (db.updateResult id f).Constraints :=
  { h with
    resultIds := by
      rw [Tables.updateResult, Rows.map_update fun r _ _ => (hf r).1]
      exact h.resultIds
    liveResults := by
      refine h.liveResults.sublist (Rows.filter_map_update_sublist ?_)
      intro r hr hid hl
      exact ⟨hlive r hr hid hl, (hf r).2⟩ }

theorem Constraints.addResult (h : db.Constraints) {row : ResultRow} {scores : List (String × Int)}
    (hid : row.id ∉ db.results.map (·.id)) (hkey : row.key ∉ db.liveKeys) :
    (db.addResult row scores).Constraints :=
  { h with
    resultIds := by
      rw [Tables.addResult, List.map_append, List.map_singleton, List.nodup_append_comm]
      exact List.nodup_cons.mpr ⟨hid, h.resultIds⟩
    liveResults := by
      rw [liveKeys, Tables.addResult, List.filter_append, List.map_append, List.nodup_append_comm]
      cases hlive : row.status.live with
      | false => simpa [List.filter_cons, hlive, liveKeys] using h.liveResults
      | true =>
          rw [List.filter_singleton, hlive]
          exact List.nodup_cons.mpr ⟨hkey, h.liveResults⟩ }

/-- Looking up an election after a write to one of them. -/
theorem election?_updateElection (h : db.Constraints) {id : Int} {e : Election} {f : Election → Election}
    (hf : ∀ e, (f e).id = e.id) (he : db.election? id = some e) {id' : Int} {e' : Election} :
    (db.updateElection id f).election? id' = some e' ↔
      (id' = id ∧ e' = f e) ∨ (id' ≠ id ∧ db.election? id' = some e') := by
  have hnext : (db.updateElection id f).Constraints := h.updateElection hf
  rw [election?_eq_some hnext, election?_eq_some h, mem_updateElection h he]
  have hid : (f e).id = id := (hf e).trans (mem_of_election? he).2
  constructor
  · rintro ⟨rfl | ⟨hmem, hne⟩, rfl⟩
    · exact Or.inl ⟨hid, rfl⟩
    · exact Or.inr ⟨hne, hmem, rfl⟩
  · rintro (⟨rfl, rfl⟩ | ⟨hne, hmem, rfl⟩)
    · exact ⟨Or.inl rfl, hid⟩
    · exact ⟨Or.inr ⟨hmem, hne⟩, rfl⟩

end Tables

/-- A database with its constraints. -/
structure Database where
  tables : Tables
  constraints : tables.Constraints

end Inec
