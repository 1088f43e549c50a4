import Mathlib.Data.List.Basic

/-!
# Programs that change a state and may stop

A program runs on a state and answers a value or stops with an exception; the state it had come to stays in
either case. `Ensures` says what holds in each of the two, and there is one rule for each way a program is put
together.
-/

namespace Raising

variable {σ ε α β : Type}

/-- The answer of a program and the state after it. -/
def exec (x : ExceptT ε (StateM σ) α) (s : σ) : Except ε α × σ := StateT.run (ExceptT.run x) s

theorem exec_get (s : σ) : exec (get : ExceptT ε (StateM σ) σ) s = (.ok s, s) := rfl

theorem exec_bind (x : ExceptT ε (StateM σ) α) (f : α → ExceptT ε (StateM σ) β) (s : σ) :
    exec (x >>= f) s =
      match exec x s with
      | (.ok a, t) => exec (f a) t
      | (.error e, t) => (.error e, t) := by
  show StateT.run (ExceptT.run (x >>= f)) s = _
  rw [ExceptT.run_bind, StateT.run_bind]
  unfold exec
  rcases hx : StateT.run (ExceptT.run x) s with ⟨a | a, t⟩
  · rfl
  · rfl

theorem exec_tryCatch (x : ExceptT ε (StateM σ) α) (h : ε → ExceptT ε (StateM σ) α) (s : σ) :
    exec (tryCatch x h) s =
      match exec x s with
      | (.ok a, t) => (.ok a, t)
      | (.error e, t) => exec (h e) t := by
  show StateT.run (ExceptT.run (ExceptT.tryCatch x h)) s = _
  unfold exec ExceptT.tryCatch
  rw [ExceptT.run_mk, StateT.run_bind]
  rcases hx : StateT.run (ExceptT.run x) s with ⟨a | a, t⟩
  · rw [show StateT.run x s = (.error a, t) from hx]
    rfl
  · rw [show StateT.run x s = (.ok a, t) from hx]
    rfl

/-! ### What a program ensures -/

/-- Started where `pre` holds, the program answers where `post` holds, or stops where `stop` does. -/
def Ensures (pre : σ → Prop) (x : ExceptT ε (StateM σ) α) (post : α → σ → Prop) (stop : ε → σ → Prop) : Prop :=
  ∀ s, pre s → match exec x s with
    | (.ok a, t) => post a t
    | (.error e, t) => stop e t

variable {pre pre' : σ → Prop} {x : ExceptT ε (StateM σ) α} {post post' : α → σ → Prop} {stop stop' : ε → σ → Prop}

theorem Ensures.imp (h : Ensures pre x post stop) (hpre : ∀ s, pre' s → pre s) (hpost : ∀ a s, post a s → post' a s)
    (hstop : ∀ e s, stop e s → stop' e s) : Ensures pre' x post' stop' := by
  intro s hs
  have h := h s (hpre s hs)
  split at h
  · exact hpost _ _ h
  · exact hstop _ _ h

theorem Ensures.imp_post (h : Ensures pre x post stop) (hpost : ∀ a s, post a s → post' a s) :
    Ensures pre x post' stop := h.imp (fun _ hs => hs) hpost fun _ _ hs => hs

/-- What does not depend on the state can be taken out of the precondition. -/
theorem ensures_of_and {fact : Prop} (h : fact → Ensures pre x post stop) :
    Ensures (fun s => fact ∧ pre s) x post stop := by
  intro s hs
  exact h hs.1 s hs.2

theorem ensures_pure (a : α) (h : ∀ s, pre s → post a s) : Ensures pre (pure a) post stop := by
  intro s hs
  exact h s hs

theorem ensures_throw (e : ε) (h : ∀ s, pre s → stop e s) : Ensures pre (throw e) post stop := by
  intro s hs
  exact h s hs

theorem ensures_modify (f : σ → σ) {post : PUnit → σ → Prop} (h : ∀ s, pre s → post ⟨⟩ (f s)) :
    Ensures pre (modify f) post stop := by
  intro s hs
  exact h s hs

/-- What follows a program starts where the program answered. -/
theorem ensures_bind {f : α → ExceptT ε (StateM σ) β} {post : β → σ → Prop} (mid : α → σ → Prop)
    (hx : Ensures pre x mid stop) (hf : ∀ a, Ensures (mid a) (f a) post stop) : Ensures pre (x >>= f) post stop := by
  intro s hs
  have hx := hx s hs
  rw [exec_bind]
  split at hx
  · exact hf _ _ hx
  · exact hx

/-- The state is read, and the rest may use that it is the one that was read. -/
theorem ensures_get_bind {f : σ → ExceptT ε (StateM σ) β} {post : β → σ → Prop}
    (hf : ∀ s, pre s → Ensures (· = s) (f s) post stop) : Ensures pre (get >>= f) post stop := by
  intro s hs
  rw [exec_bind, exec_get]
  exact hf s hs s rfl

/-- A handler starts where the program stopped. -/
theorem ensures_tryCatch {h : ε → ExceptT ε (StateM σ) α} (mid : ε → σ → Prop) (hx : Ensures pre x post mid)
    (hh : ∀ e, Ensures (mid e) (h e) post stop) : Ensures pre (tryCatch x h) post stop := by
  intro s hs
  have hx := hx s hs
  rw [exec_tryCatch]
  split at hx
  · exact hx
  · exact hh _ _ hx

/-- A loop, with what holds after the items that are done. -/
theorem ensures_forM (inv : List β → σ → Prop) {f : β → ExceptT ε (StateM σ) PUnit} (items : List β)
    (h : ∀ done item rest, items = done ++ item :: rest →
      Ensures (inv done) (f item) (fun _ => inv (done ++ [item])) stop) :
    Ensures (inv []) (items.forM f) (fun _ => inv items) stop := by
  have hrest : ∀ rest done, items = done ++ rest →
      Ensures (inv done) (rest.forM f) (fun _ => inv items) stop := by
    intro rest
    induction rest with
    | nil =>
        intro done hitems
        rw [List.append_nil] at hitems
        subst hitems
        exact ensures_pure _ fun _ hs => hs
    | cons item rest ih =>
        intro done hitems
        refine ensures_bind _ (h done item rest hitems) fun _ => ih (done ++ [item]) ?_
        rw [hitems, List.append_assoc]
        rfl
  exact hrest items [] rfl

/-! ### What a program keeps -/

/-- The program leaves a property of the state as it is, whichever way it ends. -/
def Keeps (inv : σ → Prop) (x : ExceptT ε (StateM σ) α) : Prop :=
  Ensures inv x (fun _ => inv) (fun _ => inv)

variable {inv : σ → Prop}

theorem keeps_pure (a : α) : Keeps inv (pure a : ExceptT ε (StateM σ) α) := ensures_pure a fun _ hs => hs

theorem keeps_throw (e : ε) : Keeps inv (throw e : ExceptT ε (StateM σ) α) := ensures_throw e fun _ hs => hs

theorem keeps_modify {f : σ → σ} (h : ∀ s, inv s → inv (f s)) :
    Keeps inv (modify f : ExceptT ε (StateM σ) PUnit) := ensures_modify f h

theorem keeps_bind {f : α → ExceptT ε (StateM σ) β} (hx : Keeps inv x) (hf : ∀ a, Keeps inv (f a)) :
    Keeps inv (x >>= f) := ensures_bind _ hx hf

theorem keeps_tryCatch {h : ε → ExceptT ε (StateM σ) α} (hx : Keeps inv x) (hh : ∀ e, Keeps inv (h e)) :
    Keeps inv (tryCatch x h) := ensures_tryCatch _ hx hh

theorem keeps_forM {f : β → ExceptT ε (StateM σ) PUnit} {items : List β} (h : ∀ item ∈ items, Keeps inv (f item)) :
    Keeps inv (items.forM f) := by
  refine ensures_forM (fun _ => inv) items ?_
  intro done item rest hitems
  exact h item (hitems ▸ List.mem_append_right _ List.mem_cons_self)

/-- A property that is kept holds of the state after the program. -/
theorem Keeps.exec (h : Keeps inv x) {s : σ} (hs : inv s) : inv (exec x s).2 := by
  have h := h s hs
  split at h
  · next heq => rw [heq]; exact h
  · next heq => rw [heq]; exact h

end Raising
