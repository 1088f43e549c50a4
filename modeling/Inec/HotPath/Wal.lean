import Inec.Lib.LineLog
import Inec.Lib.Runs

/-!
# The write-ahead log of the hot path

wal.rs, and the flush and the replay of pipeline.rs. A batch goes to four sinks at once; if one of them fails,
the whole batch is appended to a log of JSON lines. On the next start every record of the log goes to all four
sinks again, and the log is replaced by the records that failed once more.

`durable` is what has been synced and `torn` what a failed append has left behind it; a crash may take any end
of that away. The rename at the end of a rewrite takes effect at once. `logged` and `accepted` record what
happened; no step of the code reads them.

`Codec` is serde_json on records, of which the program uses the compact form only.
-/

namespace Inec.HotPath

open LineLog

/-! ### Records -/

inductive Sink
  | redis
  | tigerbeetle
  | opensearch
  | fluvio
  deriving DecidableEq, Repr

def Sink.all : List Sink := [.redis, .tigerbeetle, .opensearch, .fluvio]

def Sink.name : Sink → String
  | .redis => "redis"
  | .tigerbeetle => "tigerbeetle"
  | .opensearch => "opensearch"
  | .fluvio => "fluvio"

structure WalRecord (Transaction : Type) where
  ts : Int
  failedSinks : List String
  transactions : List Transaction
  deriving DecidableEq, Repr

/-- `serde_json::to_string` and `serde_json::from_str`. The compact form is UTF-8 and has no control characters. -/
structure Codec (Transaction : Type) where
  toString : WalRecord Transaction → Bytes
  fromStr : Bytes → Option (WalRecord Transaction)
  utf8 : ∀ r, Utf8 (toString r)
  newline_notMem : ∀ r, newline ∉ toString r
  carriageReturn_notMem : ∀ r, carriageReturn ∉ toString r

/-- The record is read back from its line. A batch nested more deeply than the reader goes is not. -/
def Codec.ReadsBack {Transaction : Type} (codec : Codec Transaction) (r : WalRecord Transaction) : Prop :=
  codec.fromStr (codec.toString r) = some r

/-- What the sinks say to a batch, each with its error. -/
abbrev Results := Sink → Option String

def Results.failedNames (results : Results) : List String :=
  (Sink.all.filter fun sink => (results sink).isSome).map Sink.name

def Results.failedTexts (results : Results) : List String :=
  Sink.all.filterMap fun sink => (results sink).map fun err => sink.name ++ ": " ++ err

/-! ### The engine -/

section Engine

variable {Transaction : Type}

inductive Phase (Transaction : Type)
  | down
  /-- `replay_wal`, with the records that are still to be tried and those that failed again. -/
  | replaying (todo stillFailed : List (WalRecord Transaction))
  /-- The workers run, with a log or without. -/
  | running (wal : Bool)
  deriving DecidableEq

structure Engine (Transaction : Type) where
  durable : Bytes
  torn : Bytes
  phase : Phase Transaction
  /-- Batches that a worker is about to append, with the sinks that failed. -/
  inFlight : List (List Transaction × List String)
  accepted : List (Sink × List Transaction)
  logged : List (List Transaction)
  deriving DecidableEq

def start : Engine Transaction := ⟨[], [], .down, [], [], []⟩

inductive AppendReply
  | ok
  /-- An error, or the end of the process, after this many bytes. -/
  | failed (written : Nat)
  deriving DecidableEq, Repr

inductive Input (Transaction : Type)
  /-- A start that can or cannot open the log, and can or cannot read it. -/
  | boot (opened readable : Bool)
  | retry (results : Results)
  | rewrite (done : Bool)
  | flush (batch : List Transaction) (results : Results)
  | append (index : Nat) (ts : Int) (reply : AppendReply)
  /-- The process dies, and so many bytes behind the synced ones outlive it. -/
  | crash (kept : Nat)

variable (codec : Codec Transaction)

namespace Engine

variable (e : Engine Transaction)

def file : Bytes := e.durable ++ e.torn

/-- `read_all`. -/
def readAll : Option (List (WalRecord Transaction)) := LineLog.readAll codec.fromStr e.file

/-- The batches of the next replay. -/
def recovered : List (List Transaction) := ((e.readAll codec).getD []).map WalRecord.transactions

def deliver (batch : List Transaction) (results : Results) : Engine Transaction :=
  { e with
    accepted := e.accepted ++ (Sink.all.filter fun sink => (results sink).isNone).map fun sink => (sink, batch) }

/-- The start, up to the first record of the replay. -/
def boot (opened readable : Bool) : Engine Transaction :=
  if opened then
    match if readable then e.readAll codec else none with
    | none | some [] => { e with phase := .running true }
    | some records => { e with phase := .replaying records [] }
  else { e with phase := .running false }

/-- A record of the replay goes to the sinks. -/
def retry (r : WalRecord Transaction) (todo stillFailed : List (WalRecord Transaction)) (results : Results) :
    Engine Transaction :=
  let failedSinks := results.failedTexts
  { e.deliver r.transactions results with
    phase := .replaying todo (if failedSinks.isEmpty then stillFailed else stillFailed ++
      [{ r with failedSinks }]) }

def rewrite (stillFailed : List (WalRecord Transaction)) (done : Bool) : Engine Transaction :=
  if done then { e with durable := render codec.toString stillFailed, torn := [], phase := .running true }
  else { e with phase := .running true }

/-- A worker sends a batch to the sinks. -/
def flush (wal : Bool) (batch : List Transaction) (results : Results) : Engine Transaction :=
  let sent := e.deliver batch results
  if results.failedNames.isEmpty ∨ wal = false then sent
  else { sent with inFlight := sent.inFlight ++ [(batch, results.failedNames)] }

/-- The line that an append writes. -/
def newRecord (ts : Int) (entry : List Transaction × List String) : WalRecord Transaction := ⟨ts, entry.2, entry.1⟩

def append (index : Nat) (entry : List Transaction × List String) (ts : Int) (reply : AppendReply) :
    Engine Transaction :=
  let line := codec.toString (newRecord ts entry) ++ [newline]
  match reply with
  | .ok =>
      { e with
        durable := e.file ++ line
        torn := []
        inFlight := e.inFlight.eraseIdx index
        logged := e.logged ++ [entry.1] }
  | .failed written =>
      { e with
        torn := e.torn ++ line.take written
        inFlight := e.inFlight.eraseIdx index }

def crash (kept : Nat) : Engine Transaction :=
  { e with
    torn := e.torn.take kept
    phase := .down
    inFlight := [] }

end Engine

def step (e : Engine Transaction) : Input Transaction → Engine Transaction
  | .boot opened readable =>
      match e.phase with
      | .down => e.boot codec opened readable
      | _ => e
  | .retry results =>
      match e.phase with
      | .replaying (r :: todo) stillFailed => e.retry r todo stillFailed results
      | _ => e
  | .rewrite done =>
      match e.phase with
      | .replaying [] stillFailed => e.rewrite codec stillFailed done
      | _ => e
  | .flush batch results =>
      match e.phase with
      | .running wal => e.flush wal batch results
      | _ => e
  | .append index ts reply =>
      match e.phase, e.inFlight[index]? with
      | .running _, some entry => e.append codec index entry ts reply
      | _, _ => e
  | .crash kept => e.crash kept

/-- The records that a replay is about to keep. -/
def Engine.stillFailed (e : Engine Transaction) : List (WalRecord Transaction) :=
  match e.phase with
  | .replaying _ stillFailed => stillFailed
  | _ => []

/-- Every sink has taken the batch. -/
def Engine.AllAccepted (e : Engine Transaction) (batch : List Transaction) : Prop :=
  ∀ sink ∈ Sink.all, (sink, batch) ∈ e.accepted

/-- No batch whose append returned Ok is lost. -/
def Engine.NoLoss (e : Engine Transaction) : Prop :=
  ∀ batch ∈ e.logged, e.AllAccepted batch ∨ batch ∈ e.recovered codec

/-- An append that returns Ok starts behind a newline of a file that can be read and writes a line that is read
back; a write or a crash that leaves half a character does so in a file that holds nothing; and a record that is
kept is read back as it is rewritten. -/
def Engine.Careful (e : Engine Transaction) : Input Transaction → Prop
  | .append index ts .ok =>
      ∀ entry ∈ e.inFlight[index]?, Utf8 e.file ∧ Clean e.file ∧ codec.ReadsBack (Engine.newRecord ts entry)
  | .append index ts (.failed written) =>
      ∀ entry ∈ e.inFlight[index]?,
        Utf8 (e.file ++ (codec.toString (Engine.newRecord ts entry) ++ [newline]).take written) ∨
          e.recovered codec = []
  | .crash kept => Utf8 (e.durable ++ e.torn.take kept) ∨ e.recovered codec = []
  | .rewrite true => ∀ r ∈ e.stillFailed, codec.ReadsBack r
  | _ => True

section Decidable

variable [DecidableEq Transaction]

instance (r : WalRecord Transaction) : Decidable (codec.ReadsBack r) := inferInstanceAs (Decidable (_ = _))

instance (e : Engine Transaction) (batch : List Transaction) : Decidable (e.AllAccepted batch) :=
  inferInstanceAs (Decidable (∀ _ ∈ _, _))

instance (e : Engine Transaction) : Decidable (e.NoLoss codec) := inferInstanceAs (Decidable (∀ _ ∈ _, _))

instance (e : Engine Transaction) : (i : Input Transaction) → Decidable (e.Careful codec i)
  | .append _ _ .ok => inferInstanceAs (Decidable (∀ _ ∈ _, _))
  | .append _ _ (.failed _) => inferInstanceAs (Decidable (∀ _ ∈ _, _))
  | .crash _ => inferInstanceAs (Decidable (_ ∨ _))
  | .rewrite true => inferInstanceAs (Decidable (∀ _ ∈ _, _))
  | .rewrite false | .boot _ _ | .retry _ | .flush _ _ => .isTrue trivial

end Decidable

end Engine

end Inec.HotPath
