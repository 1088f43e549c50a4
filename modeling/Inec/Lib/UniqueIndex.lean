import Mathlib.Data.List.Basic

/-!
# Unique indexes and conflict clauses

An INSERT meets the unique indexes of its table. Without a conflict clause any row it collides with refuses it.
With `ON CONFLICT (columns) DO NOTHING` the statement first has to find its arbiter: a unique index on just
these columns, in any order, and without a predicate, for a clause without one implies none. A row it collides
with under the arbiter makes the statement do nothing; under any other index it still refuses it.
-/

structure UniqueIndex (Row : Type) where
  name : String
  columns : List String
  /-- The text of its `WHERE`, where it has one. -/
  predicate : Option String
  /-- Rows that it does not take together. -/
  collide : Row → Row → Bool

namespace UniqueIndex

variable {Row : Type}

/-! ### Definitions of indexes -/

inductive Ddl (Row : Type)
  /-- `CREATE UNIQUE INDEX IF NOT EXISTS` or `ADD CONSTRAINT ... UNIQUE`. -/
  | create (index : UniqueIndex Row)
  /-- `DROP INDEX IF EXISTS` or `DROP CONSTRAINT IF EXISTS`. -/
  | drop (name : String)

def Ddl.apply (indexes : List (UniqueIndex Row)) : Ddl Row → List (UniqueIndex Row)
  | .create index => if indexes.any (·.name == index.name) then indexes else indexes ++ [index]
  | .drop name => indexes.filter (·.name != name)

/-- The indexes after the statements. -/
def migrated (ddl : List (Ddl Row)) : List (UniqueIndex Row) := ddl.foldl Ddl.apply []

/-! ### INSERT -/

/-- The index that decides about a conflict clause on these columns. -/
def arbiter? (indexes : List (UniqueIndex Row)) (target : List String) : Option (UniqueIndex Row) :=
  indexes.find? fun index => index.predicate.isNone && decide (index.columns.Perm target)

/-- The row collides with one of the table. -/
def hit (index : UniqueIndex Row) (rows : List Row) (row : Row) : Bool := rows.any (index.collide · row)

def noArbiter : String := "there is no unique or exclusion constraint matching the ON CONFLICT specification"

def violation (index : UniqueIndex Row) : String :=
  "duplicate key value violates unique constraint \"" ++ index.name ++ "\""

/-- `INSERT ...`. -/
def insert (indexes : List (UniqueIndex Row)) (rows : List Row) (row : Row) : Except String (List Row) :=
  match indexes.find? (·.hit rows row) with
  | some index => .error index.violation
  | none => .ok (rows ++ [row])

/-- `INSERT ... ON CONFLICT (target) DO NOTHING`, with the number of rows affected. -/
def insertOnConflict (indexes : List (UniqueIndex Row)) (target : List String) (rows : List Row) (row : Row) :
    Except String (List Row × Nat) :=
  match arbiter? indexes target with
  | none => .error noArbiter
  | some arbiter =>
      if arbiter.hit rows row then .ok (rows, 0) else (insert indexes rows row).map fun rows => (rows, 1)

/-- The table keeps its indexes. -/
def Kept (indexes : List (UniqueIndex Row)) (rows : List Row) : Prop :=
  ∀ index ∈ indexes, rows.Pairwise fun r r' => index.collide r r' = false

variable {indexes : List (UniqueIndex Row)} {target : List String} {rows rows' : List Row} {row : Row}

theorem insert_eq_ok : insert indexes rows row = .ok rows' ↔
    (∀ index ∈ indexes, index.hit rows row = false) ∧ rows' = rows ++ [row] := by
  rw [insert]
  cases hfind : indexes.find? (·.hit rows row) with
  | some index =>
      have hmem := List.mem_of_find?_eq_some hfind
      have hhit : index.hit rows row = true := by simpa using List.find?_some hfind
      constructor
      · intro h
        cases h
      · rintro ⟨hno, _⟩
        rw [hno index hmem] at hhit
        cases hhit
  | none =>
      have hno : ∀ index ∈ indexes, index.hit rows row = false := by
        simpa using List.find?_eq_none.mp hfind
      constructor
      · intro h
        cases h
        exact ⟨hno, rfl⟩
      · rintro ⟨_, rfl⟩
        rfl

theorem Kept.insert (h : Kept indexes rows) (hins : UniqueIndex.insert indexes rows row = .ok rows') :
    Kept indexes rows' := by
  obtain ⟨hno, rfl⟩ := insert_eq_ok.mp hins
  intro index hindex
  rw [List.pairwise_append]
  refine ⟨h index hindex, List.pairwise_singleton _ _, ?_⟩
  intro r hr r' hr'
  rw [List.mem_singleton.mp hr']
  have hrow := List.any_eq_false.mp (hno index hindex) r hr
  exact Bool.eq_false_iff.mpr hrow

theorem insertOnConflict_of_hit {arbiter : UniqueIndex Row} (h : arbiter? indexes target = some arbiter)
    (hhit : arbiter.hit rows row = true) : insertOnConflict indexes target rows row = .ok (rows, 0) := by
  simp only [insertOnConflict, h, hhit, if_true]

theorem Kept.insertOnConflict {n : Nat} (h : Kept indexes rows)
    (hins : UniqueIndex.insertOnConflict indexes target rows row = .ok (rows', n)) : Kept indexes rows' := by
  rw [UniqueIndex.insertOnConflict] at hins
  cases harbiter : arbiter? indexes target with
  | none =>
      rw [harbiter] at hins
      cases hins
  | some arbiter =>
      simp only [harbiter] at hins
      by_cases hhit : arbiter.hit rows row = true
      · rw [if_pos hhit] at hins
        cases hins
        exact h
      · rw [if_neg hhit] at hins
        cases hrows : UniqueIndex.insert indexes rows row with
        | error err =>
            rw [hrows] at hins
            cases hins
        | ok inserted =>
            rw [hrows] at hins
            cases hins
            exact h.insert hrows

theorem insertOnConflict_of_none (h : arbiter? indexes target = none) :
    insertOnConflict indexes target rows row = .error noArbiter := by
  rw [insertOnConflict, h]

end UniqueIndex
