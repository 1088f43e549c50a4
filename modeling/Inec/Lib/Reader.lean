import Mathlib.Data.List.Basic

/-!
# Readers

A reader hands out its bytes read by read, into a buffer of the caller's size, until it answers with an error. One
error says that the stream has ended, every other that it broke.
-/

namespace Reader

inductive Err
  | eof
  | failed (text : String)
  deriving DecidableEq, Repr

abbrev BufferSize := { size : Nat // 0 < size }

variable {State : Type}

/-- What a loop over reads has collected, and the error it ended with; `none` where the rounds run out. -/
def copy (read : State → BufferSize → List UInt8 × Option Err × State) (sizes : Nat → BufferSize) :
    Nat → State → List UInt8 → List UInt8 × Option Err
  | 0, _, sent => (sent, none)
  | rounds + 1, s, sent =>
      match read s (sizes rounds) with
      | (chunk, some e, _) => (sent ++ chunk, some e)
      | (chunk, none, s') => copy read sizes rounds s' (sent ++ chunk)

/-- The reader hands out what remains, some of it in every read, and then answers with `finish`. -/
structure HandsOut (read : State → BufferSize → List UInt8 × Option Err × State) (remaining : State → List UInt8)
    (finish : Err) : Prop where
  last : ∀ s size, remaining s = [] → ∃ s', read s size = ([], some finish, s')
  more : ∀ s size, remaining s ≠ [] →
    ∃ chunk s', chunk ≠ [] ∧ read s size = (chunk, none, s') ∧ chunk ++ remaining s' = remaining s

variable {read : State → BufferSize → List UInt8 × Option Err × State}
    {remaining : State → List UInt8} {finish : Err}

/-- The loop collects all of it, whatever the buffers, and sees how the reader finishes. -/
theorem HandsOut.copy_eq (h : HandsOut read remaining finish) (sizes : Nat → BufferSize) {rounds : Nat} {s : State}
    (hrounds : (remaining s).length < rounds) (sent : List UInt8) :
    copy read sizes rounds s sent = (sent ++ remaining s, some finish) := by
  induction rounds generalizing s sent with
  | zero => omega
  | succ rounds ih =>
      rw [copy]
      by_cases hlast : remaining s = []
      · obtain ⟨s', hread⟩ := h.last s (sizes rounds) hlast
        rw [hread, hlast]
      · obtain ⟨chunk, s', hchunk, hread, hsplit⟩ := h.more s (sizes rounds) hlast
        have hpos := List.length_pos_of_ne_nil hchunk
        have hlength := congrArg List.length hsplit
        rw [List.length_append] at hlength
        rw [hread]
        simp only
        rw [ih (by omega), List.append_assoc, hsplit]

end Reader
