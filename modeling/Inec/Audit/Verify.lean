import Mathlib.Data.List.Permutation
import Inec.Audit.Replicas

/-!
# Verifying the audit trail of a result

`handleVerifyResult` of handlers.go lists the audit rows of one result by their time and compares each one's
`prev_block_hash` with the `block_hash` of the row listed before it. The chain runs through the rows of all
entities, so this holds of rows that are next to each other in the log, and of no others. No hash is computed
again, so a row whose other fields were changed passes.

The time is stored to the second, and the query leaves the order of rows of one second open.
-/

namespace Inec

open Rfc3339

variable {sha256Hex : String → String}

/-- Where a time stands in the order of the column. -/
def timeOrder (t : CivilTime) : Nat :=
  ((((t.year * 13 + t.month) * 32 + t.day) * 24 + t.hour) * 60 + t.minute) * 60 + t.second

/-- `entity_type='result' AND entity_id=?`. -/
def AuditEntry.ofResult (id : String) (e : AuditEntry) : Bool := e.entityType == "result" && e.entityId == id

/-- The rows of a result in the order of the log. -/
def resultRows (log : List AuditEntry) (id : String) : List AuditEntry := log.filter (AuditEntry.ofResult id)

/-- `ORDER BY timestamp ASC`. -/
def AuditEntry.NotAfter (a b : AuditEntry) : Prop := timeOrder a.timestamp ≤ timeOrder b.timestamp

instance : DecidableRel AuditEntry.NotAfter := fun _ _ => Nat.decLe ..

instance : Std.Total AuditEntry.NotAfter := ⟨fun _ _ => Nat.le_total ..⟩

instance : IsTrans AuditEntry AuditEntry.NotAfter := ⟨fun _ _ _ => Nat.le_trans⟩

/-- What the query may return: the rows of the result, by time. -/
def Lists (log : List AuditEntry) (id : String) (entries : List AuditEntry) : Prop :=
  entries.Perm (resultRows log id) ∧ entries.Pairwise AuditEntry.NotAfter

/-- The loop of `handleVerifyResult`. -/
def chainValid : List AuditEntry → Bool
  | [] => true
  | [_] => true
  | a :: b :: rest => b.prevBlockHash == a.blockHash && chainValid (b :: rest)

/-- What goes into the hash of a row. -/
def AuditEntry.hashed (e : AuditEntry) : String :=
  blockData e.prevBlockHash ⟨e.action, e.entityType, e.entityId, e.userId, e.details⟩ e.timestamp

/-- A row of the result has another preimage than the one its hash was taken of. -/
def Altered (log log' : List AuditEntry) (id : String) : Prop :=
  ∃ before row row' after, log = before ++ row :: after ∧ log' = before ++ row' :: after ∧ row.ofResult id = true ∧
    row'.id = row.id ∧ row'.blockHash = row.blockHash ∧ row'.hashed ≠ row.hashed

/-- The verification accepts the log as it is, and refuses it when a row of the result was altered. -/
def VerifiesExactly (log : List AuditEntry) (id : String) : Prop :=
  (∀ entries, Lists log id entries → chainValid entries = true) ∧
    ∀ log', Altered log log' id → ∀ entries, Lists log' id entries → chainValid entries = false

/-- The rows the calls of any servers have committed. -/
def auditLogAfter (sha256Hex : String → String) (acts : List AuditAct) : List AuditEntry :=
  (Runs.final (AuditDb.step sha256Hex) .empty acts).committed

/-- The query leaves room for at least one answer. -/
theorem exists_lists (log : List AuditEntry) (id : String) : ∃ entries, Lists log id entries := by
  refine ⟨(resultRows log id).insertionSort AuditEntry.NotAfter, ?_, ?_⟩
  · exact List.perm_insertionSort _ _
  · exact List.pairwise_insertionSort _ _

/-! ### The rows are sealed -/

/-- The hash of the row is the one of its other columns. -/
def AuditEntry.Sealed (sha256Hex : String → String) (e : AuditEntry) : Prop := e.blockHash = sha256Hex e.hashed

structure AuditDb.AllSealed (sha256Hex : String → String) (s : AuditDb) : Prop where
  committed : ∀ r ∈ s.committed, r.Sealed sha256Hex
  inserted : ∀ server tail row, s.phase server = .inserted tail row → row.Sealed sha256Hex

section Sealed

variable {s : AuditDb} {server : Nat}

theorem AuditDb.AllSealed.update (h : s.AllSealed sha256Hex) {rows : List AuditEntry} {next : Int}
    {holder : Int → Option Nat} {p : AppendPhase} (hrows : ∀ r ∈ rows, r.Sealed sha256Hex)
    (hp : ∀ tail row, p = .inserted tail row → row.Sealed sha256Hex) :
    AuditDb.AllSealed sha256Hex ⟨rows, next, holder, Function.update s.phase server p⟩ := by
  refine ⟨hrows, ?_⟩
  intro other tail row hphase
  dsimp only at hphase
  by_cases hother : other = server
  · rw [hother, Function.update_self] at hphase
    exact hp tail row hphase
  · rw [Function.update_of_ne hother] at hphase
    exact h.inserted other tail row hphase

theorem auditStep_sealed (s : AuditDb) (act : AuditAct) (h : s.AllSealed sha256Hex) :
    (s.step sha256Hex act).AllSealed sha256Hex := by
  cases act with
  | call server input =>
      simp only [AuditDb.step]
      split
      · exact h.update h.committed (by intro _ _ hne; cases hne)
      · exact h
  | select server =>
      simp only [AuditDb.step]
      split
      · split
        · exact h.update h.committed (by intro _ _ hne; cases hne)
        · exact h.update h.committed (by intro _ _ hne; cases hne)
      · exact h
  | lock server =>
      simp only [AuditDb.step]
      split
      · split
        · exact h
        · exact h.update h.committed (by intro _ _ hne; cases hne)
      · exact h
  | insert server ts =>
      simp only [AuditDb.step]
      split
      · apply h.update h.committed
        intro tail row hrow
        obtain ⟨-, rfl⟩ := AppendPhase.inserted.inj hrow
        rfl
      · exact h
  | commit server =>
      simp only [AuditDb.step]
      split
      · rename_i tail row hphase
        refine h.update ?_ (by intro _ _ hne; cases hne)
        intro r hr
        rcases List.mem_append.mp hr with hr | hr
        · exact h.committed r hr
        · rw [List.mem_singleton.mp hr]
          exact h.inserted server tail row hphase
      · exact h
  | abort server => exact h.update h.committed (by intro _ _ hne; cases hne)

end Sealed

theorem auditLogAfter_sealed (acts : List AuditAct) : ∀ r ∈ auditLogAfter sha256Hex acts, r.Sealed sha256Hex := by
  have hempty : AuditDb.empty.AllSealed sha256Hex := ⟨fun _ hr => (nomatch hr), fun _ _ _ hne => (nomatch hne)⟩
  exact (Runs.forall_visited_of_step auditStep_sealed hempty acts _ (Runs.final_mem_visited _ acts)).committed

/-! ### The logs it accepts -/

theorem chainValid_iff {entries : List AuditEntry} :
    chainValid entries = true ↔ entries.IsChain (HashChain.Follows auditView) := by
  induction entries with
  | nil => simp [chainValid]
  | cons a rest ih =>
      cases rest with
      | nil => simp [chainValid]
      | cons b rest =>
          rw [chainValid, Bool.and_eq_true, beq_iff_eq, ih, List.isChain_cons_cons]
          rfl

/-- The first field of the preimage is read back. -/
theorem prevBlockHash_eq_of_hashed {e e' : AuditEntry} (h : e.hashed = e'.hashed)
    (he : '|' ∉ e.prevBlockHash.toList) (he' : '|' ∉ e'.prevBlockHash.toList) :
    e.prevBlockHash = e'.prevBlockHash := by
  have hchars := congrArg String.toList h
  simp only [AuditEntry.hashed, blockData, String.toList_append, List.append_assoc] at hchars
  obtain ⟨hprev, -⟩ := Delimited.append_sep_inj_of_notMem_left hchars he he'
  exact String.toList_inj.mp hprev

section Accepted

variable (hinj : Function.Injective sha256Hex) (hhex : ∀ s, '|' ∉ (sha256Hex s).toList)
  (hzeros : ∀ s, sha256Hex s ≠ genesisHash) {acts : List AuditAct}
  (h : Runs.AllSteps (AuditDb.step sha256Hex) TailStands .empty acts)

include h in
theorem auditLogAfter_sound : (Runs.final (AuditDb.step sha256Hex) .empty acts).Sound :=
  Runs.forall_visited auditStep_sound AuditDb.empty_sound h _ (Runs.final_mem_visited _ acts)

include h in
theorem auditLogAfter_chained : HashChain.Chained auditView genesisHash (auditLogAfter sha256Hex acts) := by
  have hsound := auditLogAfter_sound h
  have hlinear := hsound.linear
  rw [LinearLog, hsound.order.byId_eq] at hlinear
  exact hlinear

include hzeros in
theorem blockHash_ne_genesisHash : ∀ e ∈ auditLogAfter sha256Hex acts, e.blockHash ≠ genesisHash := by
  intro e he
  rw [auditLogAfter_sealed acts e he]
  exact hzeros _

include hhex h in
theorem prevBlockHash_free : ∀ e ∈ auditLogAfter sha256Hex acts, '|' ∉ e.prevBlockHash.toList := by
  intro e he
  rcases (auditLogAfter_chained h).prior_eq he with hstart | ⟨e', he', hprior⟩
  · rw [show e.prevBlockHash = genesisHash from hstart]
    decide
  · rw [show e.prevBlockHash = e'.blockHash from hprior, auditLogAfter_sealed acts e' he']
    exact hhex _

include hinj hhex hzeros h in
/-- The answers that are accepted are the pieces of the log. -/
theorem chainValid_iff_isInfix {entries : List AuditEntry}
    (hmem : ∀ e ∈ entries, e ∈ auditLogAfter sha256Hex acts) :
    chainValid entries = true ↔ entries <:+: auditLogAfter sha256Hex acts := by
  have hchained := auditLogAfter_chained h
  have hstart := @blockHash_ne_genesisHash sha256Hex hzeros acts
  have hnodup := hchained.nodup_hash (fun e he e' he' hsame => ?_) hstart
  · rw [chainValid_iff]
    exact hchained.isChain_iff_isInfix hnodup hstart hmem
  · apply prevBlockHash_eq_of_hashed _ (prevBlockHash_free hhex h e he) (prevBlockHash_free hhex h e' he')
    apply hinj
    rw [← auditLogAfter_sealed acts e he, ← auditLogAfter_sealed acts e' he']
    exact hsame

/-- The rows of the result stand together in the log, each later than the one before. -/
def Together (log : List AuditEntry) (id : String) : Prop :=
  resultRows log id <:+: log ∧ (resultRows log id).Pairwise fun a b => timeOrder a.timestamp < timeOrder b.timestamp

theorem InOrder.sublist {rows part : List AuditEntry} (h : InOrder rows)
    (hsub : part.Sublist rows) : InOrder part :=
  List.Pairwise.sublist hsub h

/-- Rows in order are determined by which rows they are. -/
theorem InOrder.eq_of_perm {rows rows' : List AuditEntry} (h : InOrder rows) (h' : InOrder rows')
    (hperm : rows.Perm rows') :
    rows = rows' := by
  refine hperm.eq_of_pairwise ?_ h h'
  intro a b _ _ hab hba
  exact absurd hab (Int.lt_asymm hba)

/-- If every answer is a piece of the log, there is only one answer, so no two of its rows have the same time. -/
theorem together_of_isInfix {log : List AuditEntry} {id : String} (horder : InOrder log)
    (hall : ∀ entries, Lists log id entries → entries <:+: log) : Together log id := by
  have hrows : InOrder (resultRows log id) := horder.sublist List.filter_sublist
  have hunique : ∀ entries, Lists log id entries → entries = resultRows log id := by
    intro entries hlists
    exact InOrder.eq_of_perm (horder.sublist (hall entries hlists).sublist) hrows hlists.1
  constructor
  · obtain ⟨entries, hlists⟩ := exists_lists log id
    rw [← hunique entries hlists]
    exact hall entries hlists
  · apply List.pairwise_of_forall_sublist
    intro a b hab
    by_contra hnot
    -- sorting the rows from the other end leaves `b` before `a`
    have hba : [b, a].Sublist (resultRows log id).reverse := hab.reverse
    have hsorted := List.pair_sublist_insertionSort (r := AuditEntry.NotAfter) (Nat.le_of_not_lt hnot) hba
    have hlists : Lists log id ((resultRows log id).reverse.insertionSort AuditEntry.NotAfter) :=
      ⟨(List.perm_insertionSort _ _).trans (List.reverse_perm _), List.pairwise_insertionSort _ _⟩
    rw [hunique _ hlists] at hsorted
    exact Int.lt_asymm (hrows.forall_sublist hab) (hrows.forall_sublist hsorted)

/-- Rows at different times are listed in one way. -/
theorem Together.eq_resultRows {log entries : List AuditEntry} {id : String} (h : Together log id)
    (hlists : Lists log id entries) : entries = resultRows log id := by
  obtain ⟨hperm, htimes⟩ := hlists
  refine hperm.eq_of_pairwise ?_ htimes (h.2.imp Nat.le_of_lt)
  have hnodup : ((resultRows log id).map fun e => timeOrder e.timestamp).Nodup :=
    List.pairwise_map.mpr (h.2.imp Nat.ne_of_lt)
  intro a b ha hb hab hba
  exact List.inj_on_of_nodup_map hnodup (hperm.mem_iff.mp ha) hb (Nat.le_antisymm hab hba)

include hinj hhex hzeros h in
/-- Of the calls that appended to the chain, a result's are accepted as they are exactly if nothing was logged
between them, and no two of them in one second. -/
theorem accepts_iff_together (id : String) :
    (∀ entries, Lists (auditLogAfter sha256Hex acts) id entries → chainValid entries = true) ↔
      Together (auditLogAfter sha256Hex acts) id := by
  have hpiece : ∀ entries, Lists (auditLogAfter sha256Hex acts) id entries →
      (chainValid entries = true ↔ entries <:+: auditLogAfter sha256Hex acts) := by
    intro entries hlists
    apply chainValid_iff_isInfix hinj hhex hzeros h
    intro e he
    exact List.mem_of_mem_filter (hlists.1.mem_iff.mp he)
  constructor
  · intro haccepts
    apply together_of_isInfix (auditLogAfter_sound h).order
    intro entries hlists
    exact (hpiece entries hlists).mp (haccepts entries hlists)
  · intro htogether entries hlists
    rw [hpiece entries hlists, htogether.eq_resultRows hlists]
    exact htogether.1

end Accepted

/-! ### Alterations nobody sees -/

/-- The details of a row with something added. -/
def AuditEntry.annotate (e : AuditEntry) : AuditEntry := { e with details := e.details ++ " " }

theorem AuditEntry.annotate_hashed (e : AuditEntry) : e.annotate.hashed ≠ e.hashed := by
  intro h
  have hlength := congrArg String.length h
  simp only [AuditEntry.hashed, AuditEntry.annotate, blockData, String.length_append] at hlength
  have hspace : " ".length = 1 := rfl
  omega

/-- The loop reads the two hashes of a row, and nothing else. -/
theorem chainValid_annotate (before after : List AuditEntry) (e : AuditEntry) :
    chainValid (before ++ e.annotate :: after) = chainValid (before ++ e :: after) := by
  induction before with
  | nil =>
      cases after with
      | nil => rfl
      | cons b rest => rfl
  | cons a rest ih =>
      cases rest with
      | nil =>
          show (e.prevBlockHash == a.blockHash && _) = (e.prevBlockHash == a.blockHash && _)
          exact congrArg _ ih
      | cons b rest =>
          show (b.prevBlockHash == a.blockHash && _) = (b.prevBlockHash == a.blockHash && _)
          exact congrArg _ ih

section Listed

variable {before after entries : List AuditEntry} {e : AuditEntry} {id : String}

theorem resultRows_append_cons (he : e.ofResult id = true) :
    resultRows (before ++ e :: after) id = resultRows before id ++ e :: resultRows after id := by
  rw [resultRows, List.filter_append, List.filter_cons_of_pos he]
  rfl

/-- The answer with the annotated row in the place of the old one. -/
theorem Lists.annotate (h : Lists (before ++ e :: after) id entries) (he : e.ofResult id = true) :
    ∃ entries', Lists (before ++ e.annotate :: after) id entries' ∧ chainValid entries' = chainValid entries := by
  obtain ⟨hperm, htimes⟩ := h
  rw [resultRows_append_cons he] at hperm
  have hmem : e ∈ entries := hperm.mem_iff.mpr (List.mem_append_right _ List.mem_cons_self)
  obtain ⟨left, right, rfl⟩ := List.append_of_mem hmem
  refine ⟨left ++ e.annotate :: right, ⟨?_, ?_⟩, chainValid_annotate left right e⟩
  · have hrest : (left ++ right).Perm (resultRows before id ++ resultRows after id) :=
      (List.perm_middle.symm.trans (hperm.trans List.perm_middle)).cons_inv
    rw [resultRows_append_cons (e := e.annotate) he]
    exact List.perm_middle.trans ((hrest.cons e.annotate).trans List.perm_middle.symm)
  · obtain ⟨hleft, hright, hacross⟩ := List.pairwise_append.mp htimes
    obtain ⟨hlater, hrest⟩ := List.pairwise_cons.mp hright
    refine List.pairwise_append.mpr ⟨hleft, List.pairwise_cons.mpr ⟨hlater, hrest⟩, ?_⟩
    intro a ha b hb
    rcases List.mem_cons.mp hb with hb | hb
    · rw [hb]
      exact hacross a ha e List.mem_cons_self
    · exact hacross a ha b (List.mem_cons_of_mem e hb)

end Listed

/-- The verification of a result is right of a log exactly if it has nothing to verify: a row that is there can be
annotated, and the answer stays what it was. -/
theorem verifiesExactly_iff_unlogged (acts : List AuditAct) (id : String) :
    VerifiesExactly (auditLogAfter sha256Hex acts) id ↔ ∀ e ∈ auditLogAfter sha256Hex acts,
      e.ofResult id = false := by
  generalize auditLogAfter sha256Hex acts = log
  constructor
  · intro ⟨haccepts, hdetects⟩ e he
    by_contra hne
    have hof : e.ofResult id = true := Bool.not_eq_false _ ▸ hne
    obtain ⟨before, after, rfl⟩ := List.append_of_mem he
    obtain ⟨entries, hlists⟩ := exists_lists (before ++ e :: after) id
    obtain ⟨entries', hlists', hsame⟩ := hlists.annotate hof
    have haltered : Altered (before ++ e :: after) (before ++ e.annotate :: after) id :=
      ⟨before, e, e.annotate, after, rfl, rfl, hof, rfl, rfl, e.annotate_hashed⟩
    have hfalse := hdetects _ haltered entries' hlists'
    rw [hsame, haccepts entries hlists] at hfalse
    exact Bool.noConfusion hfalse
  · intro hnone
    constructor
    · intro entries hlists
      have hempty : resultRows log id = [] :=
        List.filter_eq_nil_iff.mpr fun e he => ne_true_of_eq_false (hnone e he)
      rw [(hempty ▸ hlists.1 : entries.Perm []).eq_nil]
      rfl
    · intro log' haltered
      obtain ⟨before, row, row', after, rfl, -, hrow, -⟩ := haltered
      have hnot := hnone row (List.mem_append_right _ List.mem_cons_self)
      exact absurd hrow (ne_true_of_eq_false hnot)

/-- A result that was logged before and after another one is refused, and the altered row of one that was logged
once is not. -/
theorem honest_refused_and_altered_accepted :
    (∀ entries, Lists (auditLogAfter id
        (wholeCall 0 (submissionOf "1") ++ wholeCall 0 (submissionOf "2") ++
          wholeCall 0 (submissionOf "1"))) "1" entries →
      chainValid entries = false) ∧
    ∃ log' entries, Altered (auditLogAfter id (wholeCall 0 (submissionOf "1"))) log' "1" ∧ Lists log' "1" entries ∧
      chainValid entries = true := by
  constructor
  · intro entries hlists
    have hall : ∀ entries ∈ (resultRows (auditLogAfter id
      (wholeCall 0 (submissionOf "1") ++ wholeCall 0 (submissionOf "2") ++
        wholeCall 0 (submissionOf "1"))) "1").permutations', chainValid entries = false := by
      decide +kernel
    exact hall entries (List.mem_permutations'.mpr hlists.1)
  · let row := auditEntry id 1 none (submissionOf "1") electionDay
    have haltered : Altered [row] [row.annotate] "1" :=
      ⟨[], row, row.annotate, [], rfl, rfl, rfl, rfl, rfl, row.annotate_hashed⟩
    refine ⟨[row.annotate], [row.annotate], haltered, ⟨?_, ?_⟩, rfl⟩
    · exact List.Perm.refl _
    · exact List.pairwise_singleton _ _

end Inec
