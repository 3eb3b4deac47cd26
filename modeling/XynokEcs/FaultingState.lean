import Mathlib.Logic.Basic
import Mathlib.Tactic.Common

/-!
# Stateful computations that may fault

A computation reads and rewrites a state and ends in a value or a fault; the
state it leaves behind is kept on both exits. The weakest precondition of such
a computation has one clause per exit, and one rule per way of building a
computation. Nothing here depends on what the state or the faults are.
-/

namespace XynokEcs.FaultingState

/-- A computation over `σ` that ends in an `α` or a fault `ε`. The second
component is the state left behind, on the faulting exit as well. -/
def Faulting (σ ε α : Type) := σ → Except ε α × σ

variable {σ ε α β : Type}

/-- Sequencing stops at the first fault and keeps the state it left. -/
instance : Monad (Faulting σ ε) where
  pure a := fun s => (.ok a,s)
  bind x f := fun s => match x s with
    | (.ok a,t) => f a t
    | (.error e,t) => (.error e,t)

/-- The current state. -/
def getState : Faulting σ ε σ := fun s => (.ok s,s)

/-- Replace the state by its image. -/
def modifyState (f : σ → σ) : Faulting σ ε Unit := fun s => (.ok (),f s)

/-- Leave through the faulting exit. -/
def fault (e : ε) : Faulting σ ε α := fun s => (.error e,s)

/-- A pure outcome as a computation that leaves the state alone. -/
def ofExcept (r : Except ε α) : Faulting σ ε α := fun s => (r,s)

/-- Reclassify the fault of a computation, keeping value and state. -/
def mapFault (g : ε → ε) (x : Faulting σ ε α) : Faulting σ ε α := fun s => match x s with
  | (.ok a,t) => (.ok a,t)
  | (.error e,t) => (.error (g e),t)

/-- Run a cleanup on the state when the computation faults. -/
def onFault (cleanup : σ → σ) (x : Faulting σ ε α) : Faulting σ ε α := fun s => match x s with
  | (.ok a,t) => (.ok a,t)
  | (.error e,t) => (.error e,cleanup t)

/-- Let a handler take over when the computation faults. -/
def handle (x : Faulting σ ε α) (handler : ε → Faulting σ ε α) : Faulting σ ε α :=
  fun s => match x s with
    | (.ok a,t) => (.ok a,t)
    | (.error e,t) => handler e t

/-- Run a computation on one part of the state. A missing part is a fault. -/
def focus {τ : Type} (part : σ → Option τ) (put : τ → σ → σ) (missing : ε)
    (x : Faulting τ ε α) : Faulting σ ε α := fun s => match part s with
  | none => (.error missing,s)
  | some t => ((x t).1,put (x t).2 s)

/-- Run a computation only when a condition holds. -/
def onlyIf (b : Bool) (x : Faulting σ ε Unit) : Faulting σ ε Unit := if b then x else pure ()

/-- Weakest precondition: `Q` on the value exit, `E` on the faulting exit. -/
def wp (x : Faulting σ ε α) (Q : α → σ → Prop) (E : ε → σ → Prop) (s : σ) : Prop :=
  match x s with
  | (.ok a,t) => Q a t
  | (.error e,t) => E e t

variable {x : Faulting σ ε α} {f : α → Faulting σ ε β} {s : σ}

/-- A step that returns hands its value and state to the next one. -/
theorem bind_ok {a : α} {t : σ} (h : x s=(.ok a,t)) : (x >>= f) s=f a t := by
  change (match x s with
    | (.ok a,t) => f a t
    | (.error e,t) => (.error e,t))=_
  rw [h]

/-- A step that faults ends the sequence. -/
theorem bind_error {e : ε} {t : σ} (h : x s=(.error e,t)) : (x >>= f) s=(.error e,t) := by
  change (match x s with
    | (.ok a,t) => f a t
    | (.error e,t) => (.error e,t))=_
  rw [h]

/-- Returning leaves the state as it is. -/
@[simp] theorem pure_apply (a : α) : (pure a : Faulting σ ε α) s=(.ok a,s) := rfl

/-- A state is replaced by its image. -/
@[simp] theorem modifyState_apply (g : σ → σ) :
    (modifyState g : Faulting σ ε Unit) s=(.ok (),g s) := rfl

/-- What comes after a read gets the state. -/
@[simp] theorem getState_bind {f : σ → Faulting σ ε β} : (getState >>= f) s=f s s := rfl

/-- What comes after a write runs on the new state. -/
@[simp] theorem modifyState_bind {g : σ → σ} {f : Unit → Faulting σ ε β} :
    (modifyState g >>= f) s=f () (g s) := rfl

/-- A value that is there is handed on. -/
@[simp] theorem ofExcept_ok_bind {a : α} {f : α → Faulting σ ε β} :
    (ofExcept (.ok a) >>= f) s=f a s := rfl

/-- Both postconditions may be weakened. -/
theorem wp_mono {Q Q' : α → σ → Prop} {E E' : ε → σ → Prop} (h : wp x Q E s)
    (hQ : ∀ a t,Q a t → Q' a t) (hE : ∀ e t,E e t → E' e t) : wp x Q' E' s := by
  unfold wp at h ⊢
  cases hx : x s with
  | mk r t => cases r with
    | ok a => simp only [hx] at h ⊢; exact hQ a t h
    | error e => simp only [hx] at h ⊢; exact hE e t h

/-- The rule of sequencing. -/
theorem wp_bind {Q : β → σ → Prop} {E : ε → σ → Prop} :
    wp (x >>= f) Q E s ↔ wp x (fun a t => wp (f a) Q E t) E s := by
  change (match (match x s with
    | (.ok a,t) => f a t
    | (.error e,t) => (.error e,t)) with
    | (.ok b,t) => Q b t
    | (.error e,t) => E e t) ↔ _
  unfold wp
  cases x s with
  | mk r t => cases r <;> rfl

/-- Returning asks for the postcondition now. -/
@[simp] theorem wp_pure {a : α} {Q : α → σ → Prop} {E : ε → σ → Prop} :
    wp (pure a) Q E s ↔ Q a s := Iff.rfl

/-- Reading asks for it of the state. -/
@[simp] theorem wp_getState {Q : σ → σ → Prop} {E : ε → σ → Prop} :
    wp getState Q E s ↔ Q s s := Iff.rfl

/-- Writing asks for it of the new state. -/
@[simp] theorem wp_modifyState {g : σ → σ} {Q : Unit → σ → Prop} {E : ε → σ → Prop} :
    wp (modifyState g) Q E s ↔ Q () (g s) := Iff.rfl

/-- Failing asks for the condition on failures. -/
@[simp] theorem wp_fault {e : ε} {Q : α → σ → Prop} {E : ε → σ → Prop} :
    wp (fault e) Q E s ↔ E e s := Iff.rfl

/-- A value that is there is returned. -/
@[simp] theorem wp_ofExcept_ok {a : α} {Q : α → σ → Prop} {E : ε → σ → Prop} :
    wp (ofExcept (.ok a)) Q E s ↔ Q a s := Iff.rfl

/-- An error that is there is raised. -/
@[simp] theorem wp_ofExcept_error {e : ε} {Q : α → σ → Prop} {E : ε → σ → Prop} :
    wp (ofExcept (.error e)) Q E s ↔ E e s := Iff.rfl

/-- A renamed failure is asked for under its new name. -/
@[simp] theorem wp_mapFault {g : ε → ε} {Q : α → σ → Prop} {E : ε → σ → Prop} :
    wp (mapFault g x) Q E s ↔ wp x Q (fun e t => E (g e) t) s := by
  unfold wp mapFault
  cases x s with
  | mk r t => cases r <;> rfl

/-- A failure is asked about after the cleanup. -/
@[simp] theorem wp_onFault {g : σ → σ} {Q : α → σ → Prop} {E : ε → σ → Prop} :
    wp (onFault g x) Q E s ↔ wp x Q (fun e t => E e (g t)) s := by
  unfold wp onFault
  cases x s with
  | mk r t => cases r <;> rfl

/-- A handler takes the failures over. -/
@[simp] theorem wp_handle {h : ε → Faulting σ ε α} {Q : α → σ → Prop} {E : ε → σ → Prop} :
    wp (handle x h) Q E s ↔ wp x Q (fun e t => wp (h e) Q E t) s := by
  unfold wp handle
  cases x s with
  | mk r t => cases r <;> rfl

/-- On a part that is there, `focus` is the computation on that part. -/
theorem wp_focus {τ : Type} {p : σ → Option τ} {put : τ → σ → σ} {missing : ε} {t : τ}
    {x : Faulting τ ε α} {Q : α → σ → Prop} {E : ε → σ → Prop} (h : p s=some t) :
    wp (focus p put missing x) Q E s ↔
      wp x (fun a t => Q a (put t s)) (fun e t => E e (put t s)) t := by
  unfold wp focus
  rw [h]
  dsimp only
  cases x t with
  | mk r u => cases r <;> rfl

/-- Without the part, `focus` faults at once. -/
theorem wp_focus_missing {τ : Type} {p : σ → Option τ} {put : τ → σ → σ} {missing : ε}
    {x : Faulting τ ε α} {Q : α → σ → Prop} {E : ε → σ → Prop} (h : p s=none) :
    wp (focus p put missing x) Q E s ↔ E missing s := by
  unfold wp focus
  rw [h]

/-- The result of a computation on a part that is there. -/
theorem focus_eq {τ : Type} {p : σ → Option τ} {put : τ → σ → σ} {missing : ε} {t u : τ}
    {x : Faulting τ ε α} {r : Except ε α} (h : p s=some t) (hx : x t=(r,u)) :
    focus p put missing x s=(r,put u s) := by
  unfold focus
  rw [h]
  dsimp only
  rw [hx]

/-- The result of a computation on a part that is missing. -/
theorem focus_missing {τ : Type} {p : σ → Option τ} {put : τ → σ → σ} {missing : ε}
    {x : Faulting τ ε α} (h : p s=none) : focus p put missing x s=(.error missing,s) := by
  unfold focus
  rw [h]

/-- Two postconditions proved separately hold together. -/
theorem wp_and {Q Q' : α → σ → Prop} {E E' : ε → σ → Prop} (h : wp x Q E s) (h' : wp x Q' E' s) :
    wp x (fun a t => Q a t ∧ Q' a t) (fun e t => E e t ∧ E' e t) s := by
  unfold wp at h h' ⊢
  cases hx : x s with
  | mk r t => cases r <;> simp only [hx] at h h' ⊢ <;> exact ⟨h,h'⟩

/-- What holds on both exits holds of the state left behind. -/
theorem wp_state {I : σ → Prop} (h : wp x (fun _ t => I t) (fun _ t => I t) s) : I (x s).2 := by
  unfold wp at h
  cases hx : x s with
  | mk r t => cases r <;> simp only [hx] at h ⊢ <;> exact h

/-- The value exit of a computation, read off its result. -/
theorem wp_of_ok {Q : α → σ → Prop} {E : ε → σ → Prop} {a : α} {t : σ}
    (h : wp x Q E s) (hx : x s=(.ok a,t)) : Q a t := by
  simpa only [wp,hx] using h

/-- The faulting exit of a computation, read off its result. -/
theorem wp_of_error {Q : α → σ → Prop} {E : ε → σ → Prop} {e : ε} {t : σ}
    (h : wp x Q E s) (hx : x s=(.error e,t)) : E e t := by
  simpa only [wp,hx] using h

/-- What a weakest precondition says of both exits holds of the result. -/
theorem wp_outcome {P : Except ε α×σ → Prop}
    (h : wp x (fun a t => P (.ok a,t)) (fun e t => P (.error e,t)) s) : P (x s) := by
  cases hx : x s with
  | mk r t => cases r with
    | ok a => exact wp_of_ok h hx
    | error e => exact wp_of_error h hx

/-- A weakest precondition follows from the two results it allows. -/
theorem wp_intro {Q : α → σ → Prop} {E : ε → σ → Prop}
    (hok : ∀ a t,x s=(.ok a,t) → Q a t) (herr : ∀ e t,x s=(.error e,t) → E e t) : wp x Q E s := by
  unfold wp
  cases hx : x s with
  | mk r t => cases r with
    | ok a => exact hok a t hx
    | error e => exact herr e t hx

/-- A computation that ends well exactly when a fact holds. -/
theorem ok_iff_of_wp {x : Faulting σ ε Unit} {P : Prop} (h : wp x (fun _ _ => P) (fun _ _ => ¬P) s) :
    (x s).1=.ok () ↔ P := by
  unfold wp at h
  cases hx : x s with
  | mk r t =>
    rw [hx] at h
    cases r with
    | ok a => exact iff_of_true rfl h
    | error e => exact iff_of_false nofun h

section Views

variable {ρ : Type} {g : σ → ρ}

/-- A computation that leaves a view of the state alone, whichever way it ends. -/
def Fixes (g : σ → ρ) (x : Faulting σ ε α) : Prop := ∀ s,g (x s).2=g s

/-- Steps that leave the view alone show what was there before them. -/
theorem Fixes.after (hf : ∀ a,Fixes g (f a)) (s : σ) : g ((x >>= f) s).2=g (x s).2 := by
  cases hr : x s with
  | mk r t =>
    cases r with
    | ok a =>
      rw [bind_ok hr]
      exact hf a t
    | error e => rw [bind_error hr]

/-- Computations that fix an observation do so one after the other. -/
theorem Fixes.bind (hx : Fixes g x) (hf : ∀ a,Fixes g (f a)) : Fixes g (x >>= f) :=
  fun s => (Fixes.after hf s).trans (hx s)

/-- Returning fixes everything. -/
theorem Fixes.pure (a : α) : Fixes g (Pure.pure a : Faulting σ ε α) := fun _ => rfl

/-- Failing fixes everything. -/
theorem Fixes.fault (e : ε) : Fixes g (FaultingState.fault e : Faulting σ ε α) := fun _ => rfl

/-- Neither a value nor an error moves the state. -/
theorem Fixes.ofExcept (r : Except ε α) : Fixes g (FaultingState.ofExcept r : Faulting σ ε α) :=
  fun _ => rfl

/-- Reading fixes everything. -/
theorem Fixes.getState {f : σ → Faulting σ ε β} (hf : ∀ s,Fixes g (f s)) :
    Fixes g (FaultingState.getState >>= f) := fun s => hf s s

/-- Writing fixes what it does not reach. -/
theorem Fixes.modifyState {h : σ → σ} (hh : ∀ s,g (h s)=g s) :
    Fixes g (FaultingState.modifyState h : Faulting σ ε Unit) := hh

/-- Renaming a failure leaves the state as the computation left it. -/
theorem mapFault_state (k : ε → ε) (s : σ) : (FaultingState.mapFault k x s).2=(x s).2 := by
  unfold FaultingState.mapFault
  split <;> rename_i hr <;> rw [hr]

/-- So it fixes what the computation fixes. -/
theorem Fixes.mapFault (hx : Fixes g x) (k : ε → ε) : Fixes g (FaultingState.mapFault k x) :=
  fun s => (congrArg g (mapFault_state k s)).trans (hx s)

/-- A cleanup that fixes an observation may follow. -/
theorem Fixes.onFault (hx : Fixes g x) {cleanup : σ → σ} (hc : ∀ s,g (cleanup s)=g s) :
    Fixes g (FaultingState.onFault cleanup x) := by
  intro s
  have hs := hx s
  unfold FaultingState.onFault
  split <;> rename_i hr <;> rw [hr] at hs
  · exact hs
  · exact (hc _).trans hs

/-- Work on a part that the view does not look at. -/
theorem Fixes.focus {τ : Type} {p : σ → Option τ} {put : τ → σ → σ} {missing : ε}
    (hp : ∀ t s,g (put t s)=g s) (x : Faulting τ ε α) :
    Fixes g (FaultingState.focus p put missing x) := by
  intro s
  unfold FaultingState.focus
  split
  · rfl
  · exact hp _ s

end Views

section Invariants

variable {I : σ → Prop}

/-- A computation that keeps an invariant, whichever way it ends. -/
def Stays (I : σ → Prop) (x : Faulting σ ε α) : Prop := ∀ s,I s → I (x s).2

/-- A step that ends well, followed by one that does where the first left off. -/
theorem holds_bind (ht : I (x s).2) (hf : ∀ a t,x s=(.ok a,t) → I t → I (f a t).2) :
    I ((x >>= f) s).2 := by
  cases hr : x s with
  | mk r t =>
    rw [hr] at ht
    cases r with
    | ok a =>
      rw [bind_ok hr]
      exact hf a t hr ht
    | error e =>
      rw [bind_error hr]
      exact ht

/-- Computations that keep an invariant do so one after the other. -/
theorem Stays.bind (hx : Stays I x) (hf : ∀ a,Stays I (f a)) : Stays I (x >>= f) :=
  fun s hs => holds_bind (hx s hs) fun a t _ => hf a t

/-- Returning keeps everything. -/
theorem Stays.pure (a : α) : Stays I (Pure.pure a : Faulting σ ε α) := fun _ hs => hs

/-- Failing keeps everything. -/
theorem Stays.fault (e : ε) : Stays I (FaultingState.fault e : Faulting σ ε α) := fun _ hs => hs

/-- Reading keeps what comes after keeps. -/
theorem Stays.getState {f : σ → Faulting σ ε β} (hf : ∀ s,Stays I (f s)) :
    Stays I (FaultingState.getState >>= f) := fun s => hf s s

/-- Renaming a failure keeps what the computation keeps. -/
theorem Stays.mapFault (hx : Stays I x) (k : ε → ε) : Stays I (FaultingState.mapFault k x) := by
  intro s hs
  rw [mapFault_state]
  exact hx s hs

/-- A cleanup that keeps the invariant may follow. -/
theorem Stays.onFault (hx : Stays I x) {cleanup : σ → σ} (hc : ∀ s,I s → I (cleanup s)) :
    Stays I (FaultingState.onFault cleanup x) := by
  intro s hs
  have ht := hx s hs
  unfold FaultingState.onFault
  split <;> rename_i hr <;> rw [hr] at ht
  · exact ht
  · exact hc _ ht

/-- A handler that keeps the invariant starts from where the failure left it. -/
theorem holds_handle (ht : I (x s).2) {handler : ε → Faulting σ ε α}
    (hh : ∀ e,Stays I (handler e)) : I (FaultingState.handle x handler s).2 := by
  unfold FaultingState.handle
  split <;> rename_i hr <;> rw [hr] at ht
  · exact ht
  · exact hh _ _ ht

/-- Work on a part keeps the invariant when putting its outcome back does. -/
theorem Stays.focus {τ : Type} {p : σ → Option τ} {put : τ → σ → σ} {missing : ε}
    {x : Faulting τ ε α} (hs : I s) (hp : ∀ t,p s=some t → I (put (x t).2 s)) :
    I (FaultingState.focus p put missing x s).2 := by
  unfold FaultingState.focus
  split
  · exact hs
  · rename_i t ht
    exact hp t ht

/-- What leaves a view alone keeps every invariant of the view. -/
theorem Stays.of_fixes {ρ : Type} {g : σ → ρ} (hx : Fixes g x)
    (hI : ∀ s t,g t=g s → I s → I t) : Stays I x := fun s hs => hI s _ (hx s) hs

end Invariants

end XynokEcs.FaultingState
