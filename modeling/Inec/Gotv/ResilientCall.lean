import Inec.Lib.Reader
import Mathlib.Algebra.Group.Int.Defs
import Mathlib.Algebra.Group.Nat.Defs

/-!
# Calls with retries

`resilientCall` and `readLimited` of handlers_hardening.go, with the reader for request bodies and the circuit
breaker they use. The client sends a body until its reader answers `io.EOF`, and aborts the request on any other
error. The hand-written reader ends with an error of its own that only has the text "EOF", so no request with a
body arrives. `readLimited` takes any error for the end.

The client, the downstream, the clock and the context are parameters.
-/

namespace Inec.ResilientCall

/-! ### The circuit breaker -/

inductive CircuitState
  | closed
  | opened
  | halfOpen
  deriving DecidableEq, Repr

structure GOTVCircuitBreaker where
  name : String
  state : CircuitState
  failures : Int
  successes : Int
  threshold : Int
  halfOpenMax : Int
  resetTimeout : Int
  lastFailure : Int
  deriving DecidableEq, Repr

def newGOTVCircuitBreaker (name : String) (threshold resetTimeout : Int) : GOTVCircuitBreaker :=
  ⟨name, .closed, 0, 0, threshold, 3, resetTimeout, 0⟩

namespace GOTVCircuitBreaker

variable (cb : GOTVCircuitBreaker)

/-- An open breaker lets calls through again once the timeout has passed. -/
def allow (now : Int) : Bool × GOTVCircuitBreaker :=
  match cb.state with
  | .closed => (true, cb)
  | .opened =>
      if cb.resetTimeout < now - cb.lastFailure then (true, { cb with state := .halfOpen, successes := 0 })
      else (false, cb)
  | .halfOpen => (true, cb)

def recordSuccess : GOTVCircuitBreaker :=
  match cb.state with
  | .closed => { cb with failures := 0 }
  | .opened => cb
  | .halfOpen =>
      if cb.halfOpenMax ≤ cb.successes + 1 then
        { cb with successes := cb.successes + 1, state := .closed, failures := 0 }
      else { cb with successes := cb.successes + 1 }

def recordFailure (now : Int) : GOTVCircuitBreaker :=
  { cb with
    lastFailure := now
    failures := cb.failures + 1
    state := if cb.threshold ≤ cb.failures + 1 then .opened else cb.state }

end GOTVCircuitBreaker

/-! ### Bodies -/

structure ByteReadCloser where
  data : List UInt8
  pos : Nat
  deriving DecidableEq, Repr

def jsonReader (data : List UInt8) : ByteReadCloser := ⟨data, 0⟩

/-- At the end an error with the text of `io.EOF`, which is another value. -/
def ByteReadCloser.read (b : ByteReadCloser) (size : Reader.BufferSize) :
    List UInt8 × Option Reader.Err × ByteReadCloser :=
  if b.data.length ≤ b.pos then ([], some (.failed "EOF"), b)
  else
    let chunk := (b.data.drop b.pos).take size.val
    (chunk, none, { b with pos := b.pos + chunk.length })

/-- The body of a response, read by read: some bytes, and with the last of them the error that ends it. -/
inductive Stream
  | data (chunk : List UInt8) (rest : Stream)
  | stop (chunk : List UInt8) (error : Reader.Err)
  deriving DecidableEq, Repr

def Stream.bytes : Stream → List UInt8
  | .data chunk rest => chunk ++ rest.bytes
  | .stop chunk _ => chunk

def Stream.ending : Stream → Reader.Err
  | .data _ rest => rest.ending
  | .stop _ error => error

/-- The loop of `readLimited`. -/
def readLoop (limit : Int) : Stream → List UInt8 → Int → List UInt8 × Option String
  | .data chunk rest, buf, total =>
      if 0 < chunk.length ∧ limit < total + chunk.length then
        (buf, some ("response too large (>" ++ toString limit ++ " bytes)"))
      else readLoop limit rest (buf ++ chunk) (total + chunk.length)
  | .stop chunk _, buf, total =>
      if 0 < chunk.length ∧ limit < total + chunk.length then
        (buf, some ("response too large (>" ++ toString limit ++ " bytes)"))
      else (buf ++ chunk, none)

def readLimited (stream : Stream) (limit : Int) : List UInt8 × Option String := readLoop limit stream [] 0

/-! ### Calls -/

/-- A request as the downstream receives it. -/
structure Request where
  method : String
  url : String
  contentType : Option String
  body : List UInt8
  deriving DecidableEq, Repr

structure Response where
  statusCode : Int
  body : Stream
  deriving DecidableEq, Repr

/-- What a call meets. An attempt has two moments, the sending and the backoff, at which the context may be done. -/
structure CallEnv where
  newRequest : String → String → Except String Unit
  doneFrom : Option Nat
  ctxErr : String
  now : Nat → Int
  sizes : Nat → Nat → Reader.BufferSize
  clientError : Reader.Err → String
  serve : Nat → Request → Except String Response

def CallEnv.done (env : CallEnv) (moment : Nat) : Bool := env.doneFrom.any fun first => first ≤ moment

/-- The downstream answers every request, with no server error and a body that it sends to its end. -/
def CallEnv.Healthy (env : CallEnv) : Prop :=
  ∀ attempt request, ∃ response, env.serve attempt request = .ok response ∧ response.statusCode < 500 ∧
    response.body.ending = .eof

/-- How a call ends. `received` is what arrived in full, with the number of the attempt. -/
structure Outcome where
  breaker : GOTVCircuitBreaker
  received : List (Nat × Request)
  respBody : List UInt8
  status : Int
  err : Option String

section Call

variable (env : CallEnv) (method url : String) (body : Option (List UInt8))

/-- `mwHTTPClient.Do`: the answer, and the requests that arrived. -/
def send (attempt : Nat) : Except String Response × List (Nat × Request) :=
  if env.done (2 * attempt) then (.error env.ctxErr, [])
  else
    match body with
    | none =>
        let request : Request := ⟨method, url, none, []⟩
        (env.serve attempt request, [(attempt, request)])
    | some data =>
        -- a read before the end takes at least one byte
        match Reader.copy ByteReadCloser.read (env.sizes attempt) (data.length + 1) (jsonReader data) [] with
        | (sent, some .eof) =>
            let request : Request := ⟨method, url, some "application/json", sent⟩
            (env.serve attempt request, [(attempt, request)])
        | (_, some e) => (.error (env.clientError e), [])
        | (_, none) => (.error "", [])

/-- The loop of `resilientCall`. -/
def attempts : Nat → Nat → GOTVCircuitBreaker → String → List (Nat × Request) → Outcome
  | 0, _, cb, lastErr, received =>
      ⟨cb, received, [], 503, some ("all retries failed for " ++ cb.name ++ ": " ++ lastErr)⟩
  | left + 1, attempt, cb, _, received =>
      match env.newRequest method url with
      | .error e => ⟨cb, received, [], 0, some e⟩
      | .ok () =>
          match send env method url body attempt with
          | (.error e, arrived) =>
              let failed := cb.recordFailure (env.now (2 * attempt + 1))
              if env.done (2 * attempt + 1) then ⟨failed, received ++ arrived, [], 0, some env.ctxErr⟩
              else attempts left (attempt + 1) failed e (received ++ arrived)
          | (.ok resp, arrived) =>
              if 500 ≤ resp.statusCode then
                attempts left (attempt + 1) (cb.recordFailure (env.now (2 * attempt + 1)))
                  ("HTTP " ++ toString resp.statusCode ++ " from " ++ cb.name) (received ++ arrived)
              else
                ⟨cb.recordSuccess, received ++ arrived, (readLimited resp.body (5 * 2 ^ 20)).1,
                  resp.statusCode, none⟩

def resilientCall (cb : GOTVCircuitBreaker) : Outcome :=
  match cb.allow (env.now 0) with
  | (false, cb) => ⟨cb, [], [], 503, some ("circuit breaker " ++ cb.name ++ " is OPEN")⟩
  | (true, cb) => attempts env method url body 3 0 cb "" []

/-- The downstream receives exactly these bytes, and its answer to them is what the call returns. -/
def Delivers (cb : GOTVCircuitBreaker) : Prop :=
  ∃ attempt request response, (resilientCall env method url body cb).received = [(attempt, request)] ∧
    request.body = body.getD [] ∧ env.serve attempt request = .ok response ∧
    (resilientCall env method url body cb).respBody = response.body.bytes ∧
    (resilientCall env method url body cb).status = response.statusCode ∧
    (resilientCall env method url body cb).err = none

end Call

/-- No error only for the complete body. -/
def ReadsHonestly (stream : Stream) (limit : Int) : Prop :=
  (readLimited stream limit).2 = none → stream.ending = .eof ∧ (readLimited stream limit).1 = stream.bytes

/-! ### Readers -/

/-- The hand-written reader gives its data, whatever the buffers, and an error that is not the end. -/
theorem handsOut_read :
    Reader.HandsOut ByteReadCloser.read (fun b => b.data.drop b.pos) (.failed "EOF") where
  last := by
    intro b size h
    refine ⟨b, ?_⟩
    rw [ByteReadCloser.read, if_pos (List.drop_eq_nil_iff.mp h)]
  more := by
    intro b size h
    have hpos : ¬b.data.length ≤ b.pos := fun hle => h (List.drop_eq_nil_iff.mpr hle)
    refine ⟨(b.data.drop b.pos).take size.val, _, ?_, by rw [ByteReadCloser.read, if_neg hpos], ?_⟩
    · apply List.ne_nil_of_length_pos
      rw [List.length_take, List.length_drop]
      have hsize := size.property
      omega
    · simp only
      rw [← List.drop_drop, List.length_take]
      have hdrop : (b.data.drop b.pos).drop (min size.val (b.data.drop b.pos).length) =
          (b.data.drop b.pos).drop size.val := by
        by_cases hle : size.val ≤ (b.data.drop b.pos).length
        · rw [Nat.min_eq_left hle]
        · rw [Nat.min_eq_right (by omega), List.drop_of_length_le (Nat.le_refl _),
            List.drop_of_length_le (by omega)]
      rw [hdrop, List.take_append_drop]

/-- Beyond the limit the loop reports it, and otherwise it takes all there is and reports nothing. -/
theorem readLoop_cases (limit : Int) (stream : Stream) (buf : List UInt8) :
    (0 < stream.bytes.length ∧ limit < buf.length + stream.bytes.length ∧
        (∃ text, (readLoop limit stream buf buf.length).2 = some text) ∧
          (readLoop limit stream buf buf.length).1.length < buf.length + stream.bytes.length) ∨
      ¬(0 < stream.bytes.length ∧ limit < buf.length + stream.bytes.length) ∧
        readLoop limit stream buf buf.length = (buf ++ stream.bytes, none) := by
  induction stream generalizing buf with
  | data chunk rest ih =>
      rw [readLoop, Stream.bytes, List.length_append]
      by_cases hover : 0 < chunk.length ∧ limit < buf.length + chunk.length
      · rw [if_pos hover]
        refine Or.inl ⟨by omega, by omega, ⟨_, rfl⟩, ?_⟩
        simp only
        omega
      · have htotal : (buf.length : Int) + chunk.length = ((buf ++ chunk).length : Int) := by
          rw [List.length_append, Int.natCast_add]
        rw [if_neg hover, htotal]
        have hrest := ih (buf ++ chunk)
        rw [List.length_append] at hrest htotal
        rw [List.length_append]
        rcases hrest with ⟨hpos, hlimit, htext, hlength⟩ | ⟨hfits, hall⟩
        · exact Or.inl ⟨by omega, by omega, htext, by omega⟩
        · refine Or.inr ⟨by omega, ?_⟩
          rw [hall, List.append_assoc]
  | stop chunk error =>
      rw [readLoop, Stream.bytes]
      by_cases hover : 0 < chunk.length ∧ limit < buf.length + chunk.length
      · rw [if_pos hover]
        refine Or.inl ⟨hover.1, hover.2, ⟨_, rfl⟩, ?_⟩
        simp only
        omega
      · rw [if_neg hover]
        exact Or.inr ⟨hover, rfl⟩

theorem readLimited_of_long {stream : Stream} {limit : Int}
    (h : 0 < stream.bytes.length ∧ limit < stream.bytes.length) :
    (readLimited stream limit).2 ≠ none ∧ (readLimited stream limit).1 ≠ stream.bytes := by
  have hcases := readLoop_cases limit stream []
  simp only [List.length_nil, Int.natCast_zero, Int.zero_add, Nat.zero_add] at hcases
  rcases hcases with ⟨-, -, ⟨text, htext⟩, hlength⟩ | ⟨hfits, -⟩
  · constructor
    · rw [readLimited, htext]
      exact Option.some_ne_none text
    · intro heq
      rw [readLimited] at heq
      rw [heq] at hlength
      omega
  · exact absurd h hfits

theorem readLimited_of_short {stream : Stream} {limit : Int}
    (h : ¬(0 < stream.bytes.length ∧ limit < stream.bytes.length)) :
    readLimited stream limit = (stream.bytes, none) := by
  have hcases := readLoop_cases limit stream []
  simp only [List.length_nil, Int.natCast_zero, Int.zero_add, Nat.zero_add] at hcases
  rcases hcases with ⟨hpos, hlimit, -⟩ | ⟨-, hall⟩
  · exact absurd ⟨hpos, hlimit⟩ h
  · exact hall

theorem readsHonestly_iff {stream : Stream} {limit : Int} :
    ReadsHonestly stream limit ↔
      (stream.ending = .eof ∨ 0 < stream.bytes.length ∧ limit < stream.bytes.length) := by
  by_cases hlong : 0 < stream.bytes.length ∧ limit < stream.bytes.length
  · exact iff_of_true (fun h => absurd h (readLimited_of_long hlong).1) (Or.inr hlong)
  · have hshort := readLimited_of_short hlong
    constructor
    · intro h
      exact Or.inl (h (by rw [hshort])).1
    · rintro (heof | h)
      · intro _
        exact ⟨heof, by rw [hshort]⟩
      · exact absurd h hlong

/-! ### Deliveries -/

variable {env : CallEnv} {method url : String} {cb : GOTVCircuitBreaker}

/-- No request with a body arrives. -/
theorem send_of_body (data : List UInt8) (attempt : Nat) :
    ∃ e, send env method url (some data) attempt = (.error e, []) := by
  rw [send]
  split
  · exact ⟨_, rfl⟩
  · have hcopy := handsOut_read.copy_eq (env.sizes attempt)
      (by show ((jsonReader data).data.drop 0).length < data.length + 1; exact Nat.lt_succ_self _ :
        ((fun b : ByteReadCloser => b.data.drop b.pos) (jsonReader data)).length < data.length + 1) []
    simp only
    rw [hcopy]
    exact ⟨_, rfl⟩

theorem attempts_of_body (data : List UInt8) (left attempt : Nat) (cb : GOTVCircuitBreaker) (lastErr : String)
    (received : List (Nat × Request)) :
    (attempts env method url (some data) left attempt cb lastErr received).err ≠ none := by
  induction left generalizing attempt cb lastErr received with
  | zero => exact Option.some_ne_none _
  | succ left ih =>
      rw [attempts]
      cases env.newRequest method url with
      | error e => exact Option.some_ne_none e
      | ok _ =>
          obtain ⟨e, hsend⟩ := @send_of_body env method url data attempt
          rw [hsend]
          simp only
          split
          · exact Option.some_ne_none _
          · exact ih _ _ _ _

/-- A context that is done when the call starts is still done in the backoff. -/
theorem attempts_of_done {body : Option (List UInt8)} (hdone : env.done 0 = true) (cb : GOTVCircuitBreaker) :
    (attempts env method url body 3 0 cb "" []).err ≠ none := by
  rw [attempts]
  cases env.newRequest method url with
  | error e => exact Option.some_ne_none e
  | ok _ =>
      have hlater : env.done 1 = true := by
        rw [CallEnv.done, Option.any_eq_true] at hdone ⊢
        obtain ⟨first, hfirst, hle⟩ := hdone
        refine ⟨first, hfirst, ?_⟩
        rw [decide_eq_true_eq] at hle ⊢
        omega
      have hsend : send env method url body 0 = (.error env.ctxErr, []) := by
        unfold send
        exact if_pos hdone
      rw [hsend]
      simp only [Nat.mul_zero, Nat.zero_add, hlater, if_true]
      exact Option.some_ne_none _

/-- A healthy downstream gets a request without a body at the first attempt. -/
theorem attempts_of_nil (henv : env.Healthy) (hvalid : env.newRequest method url = .ok ())
    (hdone : env.done 0 = false) (cb : GOTVCircuitBreaker) :
    ∃ response, env.serve 0 ⟨method, url, none, []⟩ = .ok response ∧
      attempts env method url none 3 0 cb "" [] =
        ⟨cb.recordSuccess, [(0, ⟨method, url, none, []⟩)], (readLimited response.body (5 * 2 ^ 20)).1,
          response.statusCode, none⟩ := by
  obtain ⟨response, hserve, hstatus, -⟩ := henv 0 ⟨method, url, none, []⟩
  refine ⟨response, hserve, ?_⟩
  have hsend : send env method url none 0 = (.ok response, [(0, ⟨method, url, none, []⟩)]) := by
    rw [send, Nat.mul_zero, hdone]
    simp [hserve]
  rw [attempts, hvalid]
  simp only
  rw [hsend]
  simp only
  rw [if_neg (Int.not_le.mpr hstatus), List.nil_append]

theorem resilientCall_of_allow {body : Option (List UInt8)} (hallow : (cb.allow (env.now 0)).1 = true) :
    resilientCall env method url body cb = attempts env method url body 3 0 (cb.allow (env.now 0)).2 "" [] := by
  rw [resilientCall]
  rcases hall : cb.allow (env.now 0) with ⟨allowed, cb'⟩
  rw [hall] at hallow
  obtain rfl : allowed = true := hallow
  rfl

theorem delivers_nil_iff (henv : env.Healthy) (hallow : (cb.allow (env.now 0)).1 = true)
    (hvalid : env.newRequest method url = .ok ()) (hdone : env.done 0 = false) :
    Delivers env method url none cb ↔
      ∃ response, env.serve 0 ⟨method, url, none, []⟩ = .ok response ∧ response.body.bytes.length ≤ 5 * 2 ^ 20 := by
  obtain ⟨response, hserve, hattempts⟩ := attempts_of_nil henv hvalid hdone (cb.allow (env.now 0)).2
  rw [Delivers, resilientCall_of_allow hallow, hattempts]
  constructor
  · rintro ⟨attempt, request, response', hreceived, -, hserve', hbody, -, -⟩
    have hrequest : (0, (⟨method, url, none, []⟩ : Request)) = (attempt, request) := List.singleton_inj.mp hreceived
    obtain ⟨rfl, rfl⟩ := Prod.mk.inj hrequest
    rw [hserve] at hserve'
    obtain rfl := Except.ok.inj hserve'
    refine ⟨response, hserve, ?_⟩
    by_cases hlong : 0 < response.body.bytes.length ∧ (5 * 2 ^ 20 : Int) < response.body.bytes.length
    · exact absurd hbody (readLimited_of_long hlong).2
    · omega
  · rintro ⟨response', hserve', hshort⟩
    rw [hserve] at hserve'
    obtain rfl := Except.ok.inj hserve'
    refine ⟨0, _, response, rfl, rfl, hserve, ?_, rfl, rfl⟩
    rw [readLimited_of_short]
    omega

theorem not_delivers_of_err {body : Option (List UInt8)} (h : (resilientCall env method url body cb).err ≠ none) :
    ¬Delivers env method url body cb := by
  rintro ⟨-, -, -, -, -, -, -, -, hok⟩
  exact h hok

/-- The call delivers exactly where it has no body to send and its answer is at most five mebibytes; a read
without an error is complete exactly where the stream ends as it should or is too long. -/
theorem delivers_iff (henv : env.Healthy) (body : Option (List UInt8)) (stream : Stream) (limit : Int) :
    (Delivers env method url body cb ↔
      (cb.allow (env.now 0)).1 = true ∧ env.newRequest method url = .ok () ∧ env.done 0 = false ∧ body = none ∧
        ∃ response, env.serve 0 ⟨method, url, none, []⟩ = .ok response ∧
          response.body.bytes.length ≤ 5 * 2 ^ 20) ∧
      (ReadsHonestly stream limit ↔
        (stream.ending = .eof ∨ 0 < stream.bytes.length ∧ limit < stream.bytes.length)) := by
  refine ⟨?_, readsHonestly_iff⟩
  by_cases hallow : (cb.allow (env.now 0)).1 = true
  · have hcall : resilientCall env method url body cb =
        attempts env method url body 3 0 (cb.allow (env.now 0)).2 "" [] := resilientCall_of_allow hallow
    by_cases hdone : env.done 0 = true
    · refine iff_of_false (not_delivers_of_err ?_) ?_
      · rw [hcall]
        exact attempts_of_done hdone _
      · rintro ⟨-, -, halive, -⟩
        rw [hdone] at halive
        cases halive
    · cases hvalid : env.newRequest method url with
      | error e =>
          refine iff_of_false (not_delivers_of_err ?_) ?_
          · rw [hcall, attempts, hvalid]
            exact Option.some_ne_none e
          · rintro ⟨-, hok, -⟩
            cases hok
      | ok _ =>
          cases body with
          | some data =>
              refine iff_of_false (not_delivers_of_err ?_) ?_
              · rw [hcall]
                exact attempts_of_body data 3 0 _ _ _
              · rintro ⟨-, -, -, hnil, -⟩
                cases hnil
          | none =>
              have halive : env.done 0 = false := by simpa using hdone
              rw [delivers_nil_iff henv hallow hvalid halive]
              simp [hallow, halive]
  · refine iff_of_false (not_delivers_of_err ?_) ?_
    · rw [resilientCall]
      rcases hall : cb.allow (env.now 0) with ⟨allowed, cb'⟩
      rw [hall, Bool.not_eq_true] at hallow
      obtain rfl : allowed = false := hallow
      exact Option.some_ne_none _
    · rintro ⟨hallow', -⟩
      exact hallow hallow'

/-- A downstream that answers every request with `OK`, for the cases below. -/
def okEnv : CallEnv where
  newRequest := fun _ _ => .ok ()
  doneFrom := none
  ctxErr := ""
  now := fun _ => 0
  sizes := fun _ _ => ⟨32768, by decide⟩
  clientError := fun _ => "EOF"
  serve := fun _ _ => .ok ⟨200, .data [79, 75] (.stop [] .eof)⟩

theorem healthy_okEnv : okEnv.Healthy := by
  intro attempt request
  exact ⟨_, rfl, by decide, rfl⟩

/-- A call without a body, and a stream of two bytes. -/
theorem delivers_without_body :
    Delivers okEnv "POST" "http://waf/inspect" none (newGOTVCircuitBreaker "openappsec" 5 15000000000) ∧
      ReadsHonestly (.data [79, 75] (.stop [] .eof)) 1000 := by
  have hboth := @delivers_iff okEnv "POST" "http://waf/inspect" (newGOTVCircuitBreaker "openappsec" 5 15000000000)
    healthy_okEnv none (.data [79, 75] (.stop [] .eof)) 1000
  exact ⟨hboth.1.mpr ⟨rfl, rfl, rfl, rfl, _, rfl, by decide⟩, hboth.2.mpr (Or.inl rfl)⟩

/-- A call with the body of an empty object, and a stream that breaks off. -/
theorem body_not_delivered :
    ¬Delivers okEnv "POST" "http://fluvio/produce" (some [123, 125])
        (newGOTVCircuitBreaker "fluvio" 5 30000000000) ∧
      ¬ReadsHonestly (.stop [79] (.failed "unexpected EOF")) 1000 := by
  constructor
  · rintro ⟨-, -, -, -, -, -, -, -, hok⟩
    exact absurd hok (by decide)
  · intro h
    exact absurd (h rfl).1 (by decide)

end Inec.ResilientCall
