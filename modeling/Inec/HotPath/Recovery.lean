import Inec.HotPath.Wal

/-!
# No batch is lost

The synced part of the log ends in a newline at all times, and holds every batch that was logged and has not
been taken by every sink: what is torn stands behind it. A replay keeps hold of each record until all sinks have
it, and puts the log away only then.
-/

namespace Inec.HotPath

open LineLog

variable {Transaction : Type} {codec : Codec Transaction} {e : Engine Transaction}

/-! ### Acceptance -/

theorem Engine.AllAccepted.deliver {batch : List Transaction} (h : e.AllAccepted batch)
    (other : List Transaction) (results : Results) : (e.deliver other results).AllAccepted batch :=
  fun sink hsink => List.mem_append_left _ (h sink hsink)

/-- A batch that no sink refuses is in all of them. -/
theorem allAccepted_deliver {results : Results} (h : results.failedTexts = []) (batch : List Transaction) :
    (e.deliver batch results).AllAccepted batch := by
  intro sink hsink
  apply List.mem_append_right
  apply List.mem_map_of_mem
  rw [List.mem_filter]
  refine ⟨hsink, ?_⟩
  have hnone := List.filterMap_eq_nil_iff.mp h sink hsink
  rw [Option.map_eq_none_iff] at hnone
  rw [hnone]
  rfl

/-! ### The invariant -/

/-- The batches of the records. -/
def batches (rs : List (WalRecord Transaction)) : List (List Transaction) := rs.map WalRecord.transactions

/-- The records that a replay has read are in the sinks, or still in its hands. -/
def Engine.InHand (e : Engine Transaction) (rs : List (WalRecord Transaction)) : Prop :=
  match e.phase with
  | .replaying todo stillFailed =>
      ∀ batch ∈ batches rs, e.AllAccepted batch ∨ batch ∈ batches todo ∨ batch ∈ batches stillFailed
  | _ => True

structure Engine.Sound (codec : Codec Transaction) (e : Engine Transaction) : Prop where
  clean : Clean e.durable
  utf8 : Utf8 e.file ∨ ∀ batch ∈ e.logged, e.AllAccepted batch
  held : ∀ batch ∈ e.logged, e.AllAccepted batch ∨ batch ∈ batches (records codec.fromStr e.durable)
  inHand : e.InHand (records codec.fromStr e.file)

theorem records_file (hclean : Clean e.durable) :
    records codec.fromStr e.file = records codec.fromStr e.durable ++ records codec.fromStr e.torn :=
  records_append hclean

theorem recovered_of_utf8 (h : Utf8 e.file) : e.recovered codec = batches (records codec.fromStr e.file) := by
  rw [Engine.recovered, Engine.readAll, readAll_eq_some.mpr ⟨h, rfl⟩]
  rfl

theorem Engine.Sound.noLoss (h : e.Sound codec) : e.NoLoss codec := by
  intro batch hbatch
  rcases h.utf8 with hutf8 | hall
  · refine (h.held batch hbatch).imp_right ?_
    intro hmem
    rw [recovered_of_utf8 hutf8, records_file h.clean, batches, List.map_append]
    exact List.mem_append_left _ hmem
  · exact .inl (hall batch hbatch)

/-- While nothing can be recovered, nothing is missed. -/
theorem Engine.Sound.allAccepted (h : e.Sound codec) (hnone : e.recovered codec = []) :
    ∀ batch ∈ e.logged, e.AllAccepted batch := by
  intro batch hbatch
  rcases h.noLoss batch hbatch with hall | hmem
  · exact hall
  · rw [hnone] at hmem
    cases hmem

theorem sound_start : start.Sound codec := ⟨clean_nil, .inl utf8_nil, nofun, trivial⟩

/-! ### Steps -/

theorem Engine.Sound.boot (h : e.Sound codec) (opened readable : Bool) :
    (e.boot codec opened readable).Sound codec := by
  have hrun : ∀ wal, ({ e with phase := .running wal } : Engine Transaction).Sound codec :=
    fun _ => ⟨h.clean, h.utf8, h.held, trivial⟩
  rw [Engine.boot]
  split
  case isFalse => exact hrun false
  case isTrue =>
    split
    case h_1 => exact hrun true
    case h_2 => exact hrun true
    case h_3 rs _ hread =>
      refine ⟨h.clean, h.utf8, h.held, ?_⟩
      have hfile : e.readAll codec = some rs := by
        cases readable with
        | true => exact hread
        | false => cases hread
      intro batch hbatch
      exact .inr (.inl ((readAll_eq_some.mp hfile).2 ▸ hbatch))

theorem Engine.Sound.retry (h : e.Sound codec) {r : WalRecord Transaction}
    {todo stillFailed : List (WalRecord Transaction)} (hphase : e.phase = .replaying (r :: todo) stillFailed)
    (results : Results) : (e.retry r todo stillFailed results).Sound codec where
  clean := h.clean
  utf8 := h.utf8.imp_right fun hall batch hbatch => (hall batch hbatch).deliver _ _
  held := fun batch hbatch => (h.held batch hbatch).imp_left fun hall => hall.deliver _ _
  inHand := by
    have hinHand := h.inHand
    rw [Engine.InHand, hphase] at hinHand
    intro batch hbatch
    rcases hinHand batch hbatch with hall | htodo | hfailed
    · exact .inl (hall.deliver _ _)
    · rcases List.mem_cons.mp htodo with rfl | hlater
      · by_cases hnone : results.failedTexts = []
        · exact .inl (allAccepted_deliver hnone _)
        · refine .inr (.inr ?_)
          rw [if_neg (by rw [List.isEmpty_iff]; exact hnone), batches, List.map_append]
          exact List.mem_append_right _ (List.mem_singleton_self _)
      · exact .inr (.inl hlater)
    · refine .inr (.inr ?_)
      split
      · exact hfailed
      · rw [batches, List.map_append]
        exact List.mem_append_left _ hfailed

theorem Engine.Sound.rewrite (h : e.Sound codec) {stillFailed : List (WalRecord Transaction)}
    (hphase : e.phase = .replaying [] stillFailed) (hback : ∀ r ∈ stillFailed, codec.ReadsBack r) (done : Bool) :
    (e.rewrite codec stillFailed done).Sound codec := by
  rw [Engine.rewrite]
  split
  case isFalse => exact ⟨h.clean, h.utf8, h.held, trivial⟩
  case isTrue =>
    have hrender : records codec.fromStr (render codec.toString stillFailed) = stillFailed :=
      records_render codec.newline_notMem codec.carriageReturn_notMem hback
    exact {
      clean := clean_render codec.newline_notMem stillFailed
      utf8 := .inl ((utf8_render codec.utf8 stillFailed).append utf8_nil)
      held := by
        intro batch hbatch
        rcases h.held batch hbatch with hall | hmem
        · exact .inl hall
        · have hfile : batch ∈ batches (records codec.fromStr e.file) := by
            rw [records_file h.clean, batches, List.map_append]
            exact List.mem_append_left _ hmem
          have hinHand := h.inHand
          rw [Engine.InHand, hphase] at hinHand
          rcases hinHand batch hfile with hall | htodo | hfailed
          · exact .inl hall
          · cases htodo
          · exact .inr (hrender.symm ▸ hfailed)
      inHand := trivial }

/-- What a worker adds leaves the log alone. -/
theorem Engine.Sound.flush (h : e.Sound codec) {wal : Bool} (hphase : e.phase = .running wal)
    (batch : List Transaction) (results : Results) : (e.flush wal batch results).Sound codec := by
  have hsent : (e.deliver batch results).Sound codec := {
    clean := h.clean
    utf8 := h.utf8.imp_right fun hall batch hbatch => (hall batch hbatch).deliver _ _
    held := fun batch hbatch => (h.held batch hbatch).imp_left fun hall => hall.deliver _ _
    inHand := by
      show Engine.InHand _ _
      rw [Engine.InHand, show (e.deliver batch results).phase = _ from hphase]
      trivial }
  rw [Engine.flush]
  split
  · exact hsent
  · exact ⟨hsent.clean, hsent.utf8, hsent.held, hsent.inHand⟩

theorem Engine.Sound.append_ok (h : e.Sound codec) {wal : Bool} (hphase : e.phase = .running wal) (index : Nat)
    {entry : List Transaction × List String} {ts : Int} (hutf8 : Utf8 e.file) (hclean : Clean e.file)
    (hback : codec.ReadsBack (newRecord ts entry)) : (e.append codec index entry ts .ok).Sound codec := by
  have hline := clean_line (codec.newline_notMem (newRecord ts entry))
  have hrecords : records codec.fromStr (e.file ++ (codec.toString (newRecord ts entry) ++ [newline])) =
      records codec.fromStr e.file ++ [newRecord ts entry] := by
    rw [records_append hclean, records_line (codec.newline_notMem _) (codec.carriageReturn_notMem _) hback]
  exact {
    clean := hclean.append hline
    utf8 := by
      left
      show Utf8 ((e.file ++ _) ++ [])
      rw [List.append_nil]
      exact hutf8.append ((codec.utf8 _).append utf8_newline)
    held := by
      intro batch hbatch
      show e.AllAccepted batch ∨ batch ∈ batches (records codec.fromStr (e.file ++ _))
      rw [hrecords, batches, List.map_append]
      rcases List.mem_append.mp hbatch with hold | hnew
      · refine (h.held batch hold).imp_right ?_
        intro hmem
        rw [records_file h.clean, List.map_append]
        exact List.mem_append_left _ (List.mem_append_left _ hmem)
      · rw [List.mem_singleton.mp hnew]
        exact .inr (List.mem_append_right _ (List.mem_singleton_self _))
    inHand := by
      rw [Engine.InHand, show (e.append codec index entry ts .ok).phase = _ from hphase]
      trivial }

theorem Engine.Sound.append_failed (h : e.Sound codec) {wal : Bool} (hphase : e.phase = .running wal) (index : Nat)
    {entry : List Transaction × List String} {ts : Int} {written : Nat}
    (hcut : Utf8 (e.file ++ (codec.toString (newRecord ts entry) ++ [newline]).take written) ∨
      e.recovered codec = []) : (e.append codec index entry ts (.failed written)).Sound codec where
  clean := h.clean
  utf8 := by
    rcases hcut with hutf8 | hnone
    · left
      show Utf8 (e.durable ++ (e.torn ++ _))
      rw [← List.append_assoc]
      exact hutf8
    · exact .inr (h.allAccepted hnone)
  held := h.held
  inHand := by
    rw [Engine.InHand, show (e.append codec index entry ts (.failed written)).phase = _ from hphase]
    trivial

theorem Engine.Sound.crash (h : e.Sound codec) {kept : Nat}
    (hcut : Utf8 (e.durable ++ e.torn.take kept) ∨ e.recovered codec = []) : (e.crash kept).Sound codec where
  clean := h.clean
  utf8 := hcut.imp_right h.allAccepted
  held := h.held
  inHand := trivial

theorem sound_step (h : e.Sound codec) {i : Input Transaction} (hcareful : e.Careful codec i) :
    (step codec e i).Sound codec := by
  cases i with
  | boot opened readable =>
      rw [step]
      split
      · exact h.boot opened readable
      · exact h
  | retry results =>
      rw [step]
      split
      case h_1 r todo stillFailed hphase => exact h.retry hphase results
      case h_2 => exact h
  | rewrite done =>
      rw [step]
      split
      case h_1 stillFailed hphase =>
        cases done with
        | true =>
            apply h.rewrite hphase
            have hback : ∀ r ∈ e.stillFailed, codec.ReadsBack r := hcareful
            rwa [Engine.stillFailed, hphase] at hback
        | false => exact ⟨h.clean, h.utf8, h.held, trivial⟩
      case h_2 => exact h
  | flush batch results =>
      rw [step]
      split
      case h_1 wal hphase => exact h.flush hphase batch results
      case h_2 => exact h
  | append index ts reply =>
      rw [step]
      split
      case h_1 wal entry hphase hentry =>
        cases reply with
        | ok =>
            obtain ⟨hutf8, hclean, hback⟩ := hcareful entry hentry
            exact h.append_ok hphase index hutf8 hclean hback
        | failed written => exact h.append_failed hphase index (hcareful entry hentry)
      case h_2 => exact h
  | crash kept => exact h.crash hcareful

/-- While the appends stand on lines of their own, no batch whose append returned Ok is lost, whatever the sinks
do and whenever the process dies. -/
theorem Engine.noLoss_of_careful (codec : Codec Transaction) {inputs : List (Input Transaction)}
    (hcareful : Runs.AllSteps (step codec) (Engine.Careful codec) start inputs) :
    ∀ e ∈ Runs.visited (step codec) start inputs, e.NoLoss codec := by
  have hstart : start.Sound codec := sound_start
  have hrun : ∀ e ∈ Runs.visited (step codec) start inputs, e.Sound codec := by
    refine Runs.forall_visited ?_ hstart hcareful
    exact fun e i h hi => sound_step h hi
  exact fun e he => (hrun e he).noLoss

/-! ### A log of three transactions -/

/-- A codec that knows the lines of some records. -/
def tableCodec {Transaction : Type} [DecidableEq Transaction] (table : List (WalRecord Transaction × Bytes))
    (h : ∀ entry ∈ table, Utf8 entry.2 ∧ newline ∉ entry.2 ∧ carriageReturn ∉ entry.2) : Codec Transaction where
  toString r := ((table.find? fun entry => entry.1 = r).map (·.2)).getD []
  fromStr line := (table.find? fun entry => entry.2 = line).map (·.1)
  utf8 := by
    intro r
    cases hfind : table.find? fun entry => entry.1 = r with
    | none => exact utf8_nil
    | some entry => exact (h entry (List.mem_of_find?_eq_some hfind)).1
  newline_notMem := by
    intro r
    cases hfind : table.find? fun entry => entry.1 = r with
    | none => exact nofun
    | some entry => exact (h entry (List.mem_of_find?_eq_some hfind)).2.1
  carriageReturn_notMem := by
    intro r
    cases hfind : table.find? fun entry => entry.1 = r with
    | none => exact nofun
    | some entry => exact (h entry (List.mem_of_find?_eq_some hfind)).2.2

/-- The line of a record of one ballot, which is named by its id. -/
def ballotLine (failedSink id : String) : Bytes :=
  ("\x7b\"ts\":1,\"failed_sinks\":[\"" ++ failedSink ++ "\"],\"transactions\":[\x7b\"id\":\"" ++ id ++
    "\",\"type\":\"ballot_cast\",\"source\":\"pu-001\",\"timestamp\":1,\"election_id\":\"elec-1\"," ++
    "\"state_code\":\"01\",\"lga_id\":\"lga-1\",\"ward_id\":\"ward-1\",\"pu_id\":\"pu-1\",\"amount\":5," ++
    "\"hash\":\"h\",\"data\":null\x7d]\x7d").toUTF8.data.toList

def ballotCodec : Codec String :=
  tableCodec
    [(⟨1, ["redis"], ["a"]⟩, ballotLine "redis" "a"),
      (⟨1, ["redis: timeout"], ["a"]⟩, ballotLine "redis: timeout" "a"),
        (⟨1, ["redis"], ["b"]⟩, ballotLine "redis" "b"), (⟨1, ["redis"], ["c"]⟩, ballotLine "redis" "c")]
    (by decide +kernel)

/-- Redis refuses and the others take the batch. -/
def redisDown : Results
  | .redis => some "timeout"
  | _ => none

def allUp : Results := fun _ => none

/-- A batch is kept over a replay that fails, and taken by the next one with another; a third append is torn. -/
theorem Engine.noLoss_of_two_replays :
    (Runs.final (step ballotCodec) start
      [.boot true true, .flush ["a"] redisDown, .append 0 1 .ok, .crash 0, .boot true true, .retry redisDown,
        .rewrite true, .flush ["b"] redisDown, .append 0 1 .ok, .crash 0, .boot true true,
          .retry allUp, .retry allUp,
        .rewrite true, .flush ["c"] redisDown, .append 0 1 (.failed 20), .crash 10]).NoLoss ballotCodec :=
  Engine.noLoss_of_careful ballotCodec (by decide +kernel) _ (Runs.final_mem_visited _ _)

/-- An append onto a torn line returns Ok, and the next replay finds nothing. -/
theorem Engine.lost_behind_torn_line :
    ¬∀ (inputs : List (Input String)), ∀ e ∈ Runs.visited (step ballotCodec) start inputs,
      e.NoLoss ballotCodec := by
  intro h
  have hlost := h
    [.boot true true, .flush ["c"] redisDown, .append 0 1 (.failed 20), .crash 20, .boot true true,
      .flush ["a"] redisDown, .append 0 1 .ok]
    _ (Runs.final_mem_visited _ _)
  revert hlost
  decide +kernel

end Inec.HotPath
