import Inec.Collation.Drilldown
import Inec.Collation.Rollup
import Inec.Lib.Delimited
import Inec.System

/-!
# The collation as it is served

`handleCollation` looks for its answer in the cache of Redis first. Where none is there, one query reads the list and a
later one the scores or the counts; the answer is put into the cache for 15 seconds and sent. Other requests are served
between any two of these, a query may fail and leave its part empty, and the cache may lose what it holds.

What is sent was nevertheless read for this very list, both parts at moments of the run (`Justified`), since no two
lists that are cached have one key.
-/

namespace Inec.Drilldown

/-! ### Queries -/

inductive ListLevel
  | national
  | areas (level : AreaLevel)
  | units
  deriving DecidableEq, Repr

def ListLevel.text : ListLevel → String
  | .national => "national"
  | .areas .state => "state"
  | .areas .lga => "lga"
  | .areas .ward => "ward"
  | .units => "pu"

def ListLevel.all : List ListLevel := [.national, .areas .state, .areas .lga, .areas .ward, .units]

/-- `queryParam`. -/
def queryParam (value default : String) : String := if value = "" then default else value

/-- `queryParamInt`, on the number read from the query, 0 where none is. -/
def queryParamInt (value default : Int) : Int :=
  if value ≤ 0 then default else if 10000 < value then 10000 else value

/-- The parameters of a request. -/
structure CollationRequest where
  electionId : Int
  level : String
  parentCode : String
  deriving DecidableEq, Repr

/-- The parameters as the handler takes them. -/
structure CollationQuery where
  electionId : Int
  level : String
  parentCode : String
  deriving DecidableEq, Repr

def CollationRequest.query (req : CollationRequest) : CollationQuery :=
  ⟨queryParamInt req.electionId 1, queryParam req.level "state", req.parentCode⟩

/-- `fmt.Sprintf("collation_%s_%d_%s", level, eid, parentCode)`. -/
def CollationQuery.cacheKey (q : CollationQuery) : String :=
  "collation_" ++ q.level ++ "_" ++ toString q.electionId ++ "_" ++ q.parentCode

def CollationQuery.level? (q : CollationQuery) : Option ListLevel :=
  ListLevel.all.find? fun level => level.text == q.level

/-! ### Answers -/

/-- What the first query of an answer gave. -/
inductive FirstPart
  | national (totals : CollationTotals)
  | areas (level : AreaLevel) (rows : List AreaRow)
  | units (rows : List UnitRow)
  deriving DecidableEq, Repr

inductive Payload
  | national (totals : CollationTotals) (counts : StatusCounts)
  | areas (list : List Area)
  | units (list : List (UnitRow × List (String × Int)))
  /-- The list of a level that there is not. -/
  | empty

section Read

variable (order : IterationOrder)

/-- The first query. For the nation it must not fail; for the lists `none` is a query that did, and gives no rows. -/
def firstPart (q : CollationQuery) : ListLevel → Option Tables → Option FirstPart
  | .national, db? => db?.map fun db => .national (canonicalPartyTotals db q.electionId order .national "NG")
  | .areas level, db? => some (.areas level ((db?.map fun db =>
      (areas db level q.parentCode).map (areaRow db q.electionId level)).getD []))
  | .units, db? => some (.units ((db?.map fun db => unitRows db q.electionId q.parentCode).getD []))

/-- The second query, for what the first one gave. -/
def payload (q : CollationQuery) : FirstPart → Option Tables → Option Payload
  | .national totals, db? => db?.map fun db => .national totals (resultStatusCounts db q.electionId .national "NG")
  | .areas level rows, db? => some (.areas (rows.map fun row =>
      ⟨row, (db?.map fun db => collationPartyScoresBatch db q.electionId order level row.code).getD []⟩))
  | .units rows, db? => some (.units (rows.map fun row =>
      (row, ((row.result.bind fun r => db?.map fun db => resultScores db r.id)).getD [])))

end Read

/-! ### Serving -/

/-- How far a request is. -/
inductive ServePhase
  | idle
  | missed (q : CollationQuery) (level : ListLevel)
  | listed (q : CollationQuery) (level : ListLevel) (first : FirstPart)
  | ready (q : CollationQuery) (level : ListLevel) (answer : Payload)

structure Cached where
  payload : Payload
  expires : Int

structure Served where
  query : CollationQuery
  payload : Payload
  servedAt : Int
  /-- `X-Cache: HIT`. -/
  hit : Bool

structure CollationServer where
  db : Database
  cache : String → Option Cached
  phase : Nat → ServePhase
  served : List Served

inductive ServeAction
  /-- Any other request. -/
  | request (r : Request)
  /-- `cacheDel`, or the cache drops keys itself. -/
  | forget (keys : List String)
  /-- A request comes in; the cache may be out of reach. -/
  | ask (i : Nat) (req : CollationRequest) (now : Int) (reachable : Bool)
  | readList (i : Nat) (failed : Bool)
  | readScores (i : Nat) (failed : Bool)
  /-- The answer is sent, and stored unless the cache is out of reach. -/
  | send (i : Nat) (now : Int) (stored : Bool)

/-- `cacheGet`. -/
def CollationServer.cacheGet (s : CollationServer) (key : String) (now : Int) : Option Payload :=
  ((s.cache key).filter fun entry => now < entry.expires).map (·.payload)

/-- `15*time.Second`. -/
def cacheSeconds : Int := 15

def CollationServer.setPhase (s : CollationServer) (i : Nat) (phase : ServePhase) : CollationServer :=
  { s with phase := Function.update s.phase i phase }

/-- The tables a query reads. -/
def CollationServer.readable (s : CollationServer) (failed : Bool) : Option Tables :=
  if failed then none else some s.db.tables

def CollationServer.ask (s : CollationServer) (i : Nat) (q : CollationQuery) (now : Int) (reachable : Bool) :
    CollationServer :=
  match if reachable then s.cacheGet q.cacheKey now else none with
  | some payload => { s with served := s.served ++ [⟨q, payload, now, true⟩] }
  | none =>
      match q.level? with
      | some level => s.setPhase i (.missed q level)
      | none => { s with served := s.served ++ [⟨q, .empty, now, false⟩] }

def CollationServer.send (s : CollationServer) (i : Nat) (q : CollationQuery) (answer : Payload) (now : Int)
    (stored : Bool) : CollationServer where
  db := s.db
  cache := if stored then Function.update s.cache q.cacheKey (some ⟨answer, now + cacheSeconds⟩) else s.cache
  phase := Function.update s.phase i .idle
  served := s.served ++ [⟨q, answer, now, false⟩]

section Step

variable (sha256Hex : String → String) (order : IterationOrder)

def CollationServer.step (s : CollationServer) : ServeAction → CollationServer
  | .request r => { s with db := Inec.step sha256Hex s.db r }
  | .forget keys => { s with cache := fun key => if keys.contains key then none else s.cache key }
  | .ask i req now reachable =>
      match s.phase i with
      | .idle => s.ask i req.query now reachable
      | _ => s
  | .readList i failed =>
      match s.phase i with
      | .missed q level =>
          match firstPart order q level (s.readable failed) with
          | some first => s.setPhase i (.listed q level first)
          | none => s.setPhase i .idle
      | _ => s
  | .readScores i failed =>
      match s.phase i with
      | .listed q level first =>
          match payload order q first (s.readable failed) with
          | some answer => s.setPhase i (.ready q level answer)
          | none => s.setPhase i .idle
      | _ => s
  | .send i now stored =>
      match s.phase i with
      | .ready q _ answer => s.send i q answer now stored
      | _ => s

end Step

/-! ### Keys -/

theorem text_of_level? {q : CollationQuery} {level : ListLevel} (h : q.level? = some level) : level.text = q.level := by
  simpa using List.find?_some h

/-- Lists that there are have keys of their own. -/
theorem cacheKey_inj {q q' : CollationQuery} {level level' : ListLevel} (h : q.level? = some level)
    (h' : q'.level? = some level') (heq : q.cacheKey = q'.cacheKey) : q = q' := by
  have hfree : ∀ {q : CollationQuery} {level}, q.level? = some level → '_' ∉ q.level.toList := by
    intro q level h
    rw [← text_of_level? h]
    cases level with
    | national => decide
    | units => decide
    | areas level => cases level <;> decide
  have hchars := congrArg String.toList heq
  simp only [CollationQuery.cacheKey, String.toList_append, List.append_assoc] at hchars
  have hrest := List.append_cancel_left hchars
  obtain ⟨hlevel, hrest⟩ := Delimited.append_sep_inj_of_notMem_left hrest (hfree h) (hfree h')
  have hfree' := @Text.notMem_toString_int '_' (by decide) (by decide)
  obtain ⟨helection, hparent⟩ :=
    Delimited.append_sep_inj_of_notMem_left hrest (hfree' q.electionId) (hfree' q'.electionId)
  cases q
  cases q'
  congr
  · exact Text.toString_int_inj helection
  · exact String.toList_inj.mp hlevel
  · exact String.toList_inj.mp hparent

/-! ### What is sent -/

section Sent

variable {sha256Hex : String → String} {order : IterationOrder} {s₀ : CollationServer} {events : List ServeAction}
  {q : CollationQuery} {upTo : Nat}

variable (sha256Hex order s₀ events) in
/-- The server at a moment of the run. -/
def at_ (m : Nat) : CollationServer := Runs.final (CollationServer.step sha256Hex order) s₀ (events.take m)

variable (sha256Hex order s₀ events) in
/-- The first query of a request was made, and gave this. -/
def ListRead (i : Nat) (q : CollationQuery) (level : ListLevel) (first : FirstPart) : Prop :=
  ∃ m failed, events[m]? = some (.readList i failed) ∧
    firstPart order q level ((at_ sha256Hex order s₀ events m).readable failed) = some first

variable (sha256Hex order s₀ events) in
/-- The answer is that of the two queries a request made for the list, the second after the first, where a query that
failed left its part empty. -/
def AnswerRead (i : Nat) (q : CollationQuery) (answer : Payload) (upTo : Nat) : Prop :=
  ∃ level first m₁ m₂ failed₁ failed₂, q.level? = some level ∧ m₁ < m₂ ∧ m₂ < upTo ∧
    events[m₁]? = some (.readList i failed₁) ∧ events[m₂]? = some (.readScores i failed₂) ∧
    firstPart order q level ((at_ sha256Hex order s₀ events m₁).readable failed₁) = some first ∧
    payload order q first ((at_ sha256Hex order s₀ events m₂).readable failed₂) = some answer

variable (sha256Hex order s₀ events) in
/-- A request sent the answer it read, and stored it or not. -/
def Sent (q : CollationQuery) (answer : Payload) (t : Int) (stored : Bool) : Prop :=
  ∃ k i, events[k]? = some (.send i t stored) ∧ AnswerRead sha256Hex order s₀ events i q answer k

variable (sha256Hex order s₀ events) in
/-- What is sent was read for the request, or is from the cache and was stored for the same list less than 15 seconds
before. A level that there is not has no list; its key may happen to be that of another. -/
inductive Justified : Served → Prop
  | empty (q : CollationQuery) (t : Int) (none : q.level? = none) : Justified ⟨q, .empty, t, false⟩
  | read (q : CollationQuery) (answer : Payload) (t : Int) (stored : Bool)
      (read : Sent sha256Hex order s₀ events q answer t stored) : Justified ⟨q, answer, t, false⟩
  | hit (q stored : CollationQuery) (answer : Payload) (t t' : Int) (key : stored.cacheKey = q.cacheKey)
      (same : q.level?.isSome → stored = q) (fresh : t < t' + cacheSeconds)
      (read : Sent sha256Hex order s₀ events stored answer t' true) : Justified ⟨q, answer, t, true⟩

variable (sha256Hex order s₀ events) in
def PhaseKnown (i : Nat) : ServePhase → Prop
  | .idle => True
  | .missed q level => q.level? = some level
  | .listed q level first => q.level? = some level ∧ ListRead sha256Hex order s₀ events i q level first
  | .ready q _ answer => AnswerRead sha256Hex order s₀ events i q answer events.length

variable (sha256Hex order s₀ events) in
/-- What is known of a server after these events. -/
structure Known (s : CollationServer) : Prop where
  phase : ∀ i, PhaseKnown sha256Hex order s₀ events i (s.phase i)
  cache : ∀ key entry, s.cache key = some entry → ∃ q t, q.cacheKey = key ∧ entry.expires = t + cacheSeconds ∧
    Sent sha256Hex order s₀ events q entry.payload t true
  served : ∀ a ∈ s.served, Justified sha256Hex order s₀ events a

theorem at_append {m : Nat} (later : List ServeAction) (h : m ≤ events.length) :
    at_ sha256Hex order s₀ (events ++ later) m = at_ sha256Hex order s₀ events m := by
  rw [at_, at_, List.take_append_of_le_length h]

theorem getElem?_append_of_eq_some {m : Nat} {e : ServeAction} (h : events[m]? = some e) (later : List ServeAction) :
    m < events.length ∧ (events ++ later)[m]? = some e := by
  obtain ⟨hm, _⟩ := List.getElem?_eq_some_iff.mp h
  exact ⟨hm, (List.getElem?_append_left hm).trans h⟩

theorem ListRead.append {i : Nat} {level : ListLevel} {first : FirstPart}
    (h : ListRead sha256Hex order s₀ events i q level first) (later : List ServeAction) :
    ListRead sha256Hex order s₀ (events ++ later) i q level first := by
  obtain ⟨m, failed, hevent, hfirst⟩ := h
  obtain ⟨hm, hevent⟩ := getElem?_append_of_eq_some hevent later
  refine ⟨m, failed, hevent, ?_⟩
  rwa [at_append later (Nat.le_of_lt hm)]

theorem AnswerRead.append {i : Nat} {answer : Payload} (h : AnswerRead sha256Hex order s₀ events i q answer upTo)
    (later : List ServeAction) : AnswerRead sha256Hex order s₀ (events ++ later) i q answer upTo := by
  obtain ⟨level, first, m₁, m₂, failed₁, failed₂, hlevel, hm, hm₂, hlist, hscores, hfirst, hanswer⟩ := h
  obtain ⟨hlt₁, hlist⟩ := getElem?_append_of_eq_some hlist later
  obtain ⟨hlt₂, hscores⟩ := getElem?_append_of_eq_some hscores later
  refine ⟨level, first, m₁, m₂, failed₁, failed₂, hlevel, hm, hm₂, hlist, hscores, ?_, ?_⟩
  · rwa [at_append later (Nat.le_of_lt hlt₁)]
  · rwa [at_append later (Nat.le_of_lt hlt₂)]

theorem AnswerRead.mono {i : Nat} {answer : Payload} (h : AnswerRead sha256Hex order s₀ events i q answer upTo)
    {upTo' : Nat} (hle : upTo ≤ upTo') : AnswerRead sha256Hex order s₀ events i q answer upTo' := by
  obtain ⟨level, first, m₁, m₂, failed₁, failed₂, hlevel, hm, hm₂, hreads⟩ := h
  exact ⟨level, first, m₁, m₂, failed₁, failed₂, hlevel, hm, hm₂.trans_le hle, hreads⟩

theorem Sent.append {answer : Payload} {t : Int} {stored : Bool} (h : Sent sha256Hex order s₀ events q answer t stored)
    (later : List ServeAction) : Sent sha256Hex order s₀ (events ++ later) q answer t stored := by
  obtain ⟨k, i, hk, hread⟩ := h
  exact ⟨k, i, (getElem?_append_of_eq_some hk later).2, hread.append later⟩

theorem Justified.append {a : Served} (h : Justified sha256Hex order s₀ events a) (later : List ServeAction) :
    Justified sha256Hex order s₀ (events ++ later) a := by
  cases h with
  | empty q t hnone => exact .empty q t hnone
  | read q answer t stored hread => exact .read q answer t stored (hread.append later)
  | hit q stored answer t t' hkey hsame hfresh hread =>
      exact .hit q stored answer t t' hkey hsame hfresh (hread.append later)

theorem PhaseKnown.append {i : Nat} {phase : ServePhase} (h : PhaseKnown sha256Hex order s₀ events i phase)
    (later : List ServeAction) : PhaseKnown sha256Hex order s₀ (events ++ later) i phase := by
  cases phase with
  | idle => trivial
  | missed q level => exact h
  | listed q level first => exact ⟨h.1, h.2.append later⟩
  | ready q level answer => exact (AnswerRead.append h later).mono (by simp)

theorem Known.append {s : CollationServer} (h : Known sha256Hex order s₀ events s) (later : List ServeAction) :
    Known sha256Hex order s₀ (events ++ later) s where
  phase i := (h.phase i).append later
  cache key entry hentry := by
    obtain ⟨q, t, hkey, hexpires, hstored⟩ := h.cache key entry hentry
    exact ⟨q, t, hkey, hexpires, hstored.append later⟩
  served a ha := (h.served a ha).append later

theorem at_length : at_ sha256Hex order s₀ events events.length =
    Runs.final (CollationServer.step sha256Hex order) s₀ events := by
  rw [at_, List.take_length]

theorem Known.setPhase {s : CollationServer} (h : Known sha256Hex order s₀ events s) {i : Nat} {phase : ServePhase}
    (hphase : PhaseKnown sha256Hex order s₀ events i phase) : Known sha256Hex order s₀ events (s.setPhase i phase) where
  phase j := by
    simp only [CollationServer.setPhase]
    by_cases hj : j = i
    · rw [hj, Function.update_self]
      exact hphase
    · rw [Function.update_of_ne hj]
      exact h.phase j
  cache := h.cache
  served := h.served

theorem Known.serve {s : CollationServer} (h : Known sha256Hex order s₀ events s) {a : Served}
    (ha : Justified sha256Hex order s₀ events a) :
    Known sha256Hex order s₀ events { s with served := s.served ++ [a] } where
  phase := h.phase
  cache := h.cache
  served a' ha' := by
    rcases List.mem_append.mp ha' with ha' | ha'
    · exact h.served a' ha'
    · rw [List.mem_singleton.mp ha']
      exact ha

/-- What the cache gives was stored for a list with the key. -/
theorem Known.ask {s : CollationServer} (h : Known sha256Hex order s₀ events s) (i : Nat) (q : CollationQuery)
    (now : Int) (reachable : Bool) : Known sha256Hex order s₀ events (s.ask i q now reachable) := by
  unfold CollationServer.ask
  split
  · rename_i answer hcached
    refine h.serve ?_
    have hget : s.cacheGet q.cacheKey now = some answer := by
      cases reachable with
      | true => exact hcached
      | false => cases hcached
    simp only [CollationServer.cacheGet, Option.map_eq_some_iff, Option.filter_eq_some_iff, decide_eq_true_eq] at hget
    obtain ⟨entry, ⟨hentry, hfresh⟩, rfl⟩ := hget
    obtain ⟨stored, t, hkey, hexpires, hstored⟩ := h.cache _ _ hentry
    refine .hit q stored entry.payload now t hkey ?_ (hexpires ▸ hfresh) hstored
    intro hknown
    obtain ⟨level, hlevel⟩ := Option.isSome_iff_exists.mp hknown
    obtain ⟨_, _, _, _, _, _, _, _, _, hlevel', _⟩ := hstored
    exact cacheKey_inj hlevel' hlevel hkey
  · split
    · rename_i level hlevel
      exact h.setPhase hlevel
    · rename_i hnone
      exact h.serve (.empty q now hnone)

theorem Known.step {s : CollationServer} (h : Known sha256Hex order s₀ events s)
    (hs : at_ sha256Hex order s₀ events events.length = s) (e : ServeAction) :
    Known sha256Hex order s₀ (events ++ [e]) (s.step sha256Hex order e) := by
  have hlater := h.append [e]
  cases e with
  | request r => exact ⟨hlater.phase, hlater.cache, hlater.served⟩
  | forget keys =>
      refine ⟨hlater.phase, ?_, hlater.served⟩
      intro key entry hentry
      simp only [CollationServer.step] at hentry
      split at hentry
      · cases hentry
      · exact hlater.cache key entry hentry
  | ask i req now reachable =>
      simp only [CollationServer.step]
      split
      · exact hlater.ask i req.query now reachable
      · exact hlater
  | readList i failed =>
      simp only [CollationServer.step]
      split
      · rename_i q level hphase
        have hknown := h.phase i
        rw [hphase] at hknown
        split
        · rename_i first hfirst
          refine hlater.setPhase ⟨hknown, events.length, failed, by simp, ?_⟩
          rwa [at_append [.readList i failed] le_rfl, hs]
        · exact hlater.setPhase trivial
      · exact hlater
  | readScores i failed =>
      simp only [CollationServer.step]
      split
      · rename_i q level first hphase
        have hknown := h.phase i
        rw [hphase] at hknown
        obtain ⟨hlevel, m, failed₁, hlist, hfirst⟩ := hknown
        split
        · rename_i answer hanswer
          obtain ⟨hm, hlist⟩ := getElem?_append_of_eq_some hlist [.readScores i failed]
          refine hlater.setPhase ⟨level, first, m, events.length, failed₁, failed, hlevel, hm, by simp, hlist, by simp,
            ?_, ?_⟩
          · rwa [at_append [.readScores i failed] (Nat.le_of_lt hm)]
          · rwa [at_append [.readScores i failed] le_rfl, hs]
        · exact hlater.setPhase trivial
      · exact hlater
  | send i now stored =>
      simp only [CollationServer.step]
      split
      · rename_i q level answer hphase
        have hready := h.phase i
        rw [hphase] at hready
        have hread : Sent sha256Hex order s₀ (events ++ [.send i now stored]) q answer now stored :=
          ⟨events.length, i, by simp, AnswerRead.append hready _⟩
        have hidle : Known sha256Hex order s₀ (events ++ [.send i now stored]) (s.setPhase i .idle) :=
          hlater.setPhase trivial
        have hsent := hidle.serve (.read q answer now stored hread)
        refine ⟨hsent.phase, ?_, hsent.served⟩
        intro key entry hentry
        simp only [CollationServer.send] at hentry
        cases stored with
        | false => exact hlater.cache key entry hentry
        | true =>
            rw [if_pos rfl] at hentry
            by_cases hkey : key = q.cacheKey
            · subst hkey
              rw [Function.update_self] at hentry
              obtain rfl := Option.some.inj hentry
              exact ⟨q, now, rfl, rfl, hread⟩
            · rw [Function.update_of_ne hkey] at hentry
              exact hlater.cache key entry hentry
      · exact hlater

/-- Nothing cached and nothing under way. -/
structure Quiet (s : CollationServer) : Prop where
  phase : ∀ i, s.phase i = .idle
  cache : ∀ key, s.cache key = none
  served : s.served = []

end Sent

/-- The LGAs of a state, asked for three times; the result is withdrawn between the two queries of the first. -/
def askedTwice : List ServeAction :=
  [.ask 0 ⟨1, "lga", "S-1"⟩ 0 true, .readList 0 false,
    .request ⟨.plain 1 "chair" .admin 0, .correct 1 ⟨[⟨"APC", 45⟩, ⟨"LP", 55⟩], 100, 0, "recount", none⟩⟩,
    .readScores 0 false, .send 0 2 true, .ask 1 ⟨1, "lga", "S-1"⟩ 16 true, .ask 2 ⟨1, "lga", "S-1"⟩ 17 true]

def quietServer : CollationServer := ⟨countedPoll .collating, fun _ => none, fun _ => .idle, []⟩

end Inec.Drilldown
