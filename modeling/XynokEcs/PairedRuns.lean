import XynokEcs.ActionRuns
import XynokEcs.FaultingState

/-!
# Two computations side by side

One computation simulates another when both, started from related states, end in
the same way with the same value or fault, and leave related states behind. There
is one rule for each way of building a computation, and a run of calls that each
simulate another reports what the other run reports. Nothing here depends on what
the states, the calls or the faults are.
-/

namespace XynokEcs.PairedRuns

open ActionRuns FaultingState

variable {σ τ ε α β A B : Type}

/-- Two results of one kind, with the same value or the same fault. The states left
behind are related as that exit asks. -/
inductive SameExit (Q : α → σ → τ → Prop) (E : σ → τ → Prop) :
    Except ε α×σ → Except ε α×τ → Prop
  | ok {a : α} {s : σ} {t : τ} (h : Q a s t) : SameExit Q E (.ok a,s) (.ok a,t)
  | error {e : ε} {s : σ} {t : τ} (h : E s t) : SameExit Q E (.error e,s) (.error e,t)

/-- Started in related states, both computations take the same exit. -/
def Simulates (R : σ → τ → Prop) (x : Faulting σ ε α) (y : Faulting τ ε α)
    (Q : α → σ → τ → Prop) (E : σ → τ → Prop) : Prop :=
  ∀ s t,R s t → SameExit Q E (x s) (y t)

section Exits

variable {Q Q' : α → σ → τ → Prop} {E E' : σ → τ → Prop} {r : Except ε α×σ} {r' : Except ε α×τ}

theorem SameExit.mono (h : SameExit Q E r r') (hQ : ∀ a s t,Q a s t → Q' a s t)
    (hE : ∀ s t,E s t → E' s t) : SameExit Q' E' r r' := by
  cases h with
  | ok h => exact .ok (hQ _ _ _ h)
  | error h => exact .error (hE _ _ h)

/-- Both report the same. -/
theorem SameExit.outcome (h : SameExit Q E r r') : r.1=r'.1 := by
  cases h <;> rfl

/-- A relation that holds on both exits holds of the states left behind. -/
theorem SameExit.states {R : σ → τ → Prop} (h : SameExit (fun _ => R) R r r') : R r.2 r'.2 := by
  cases h with
  | ok h => exact h
  | error h => exact h

/-- Where the second returns, the first does too. -/
theorem SameExit.returns {a : α} {t : τ} (h : SameExit Q E r (.ok a,t)) :
    ∃ s,r=(.ok a,s) ∧ Q a s t := by
  cases h with
  | ok h => exact ⟨_,rfl,h⟩

/-- Results that are alike are alike in two steps. -/
theorem SameExit.trans {ρ : Type} {P : α → τ → ρ → Prop} {F : τ → ρ → Prop} {r'' : Except ε α×ρ}
    (h : SameExit Q E r r') (h' : SameExit P F r' r'') :
    SameExit (fun a s u => ∃ t,Q a s t ∧ P a t u) (fun s u => ∃ t,E s t ∧ F t u) r r'' := by
  cases h with
  | ok hq => cases h' with
    | ok hp => exact .ok ⟨_,hq,hp⟩
  | error he => cases h' with
    | error hf => exact .error ⟨_,he,hf⟩

end Exits

section Rules

variable {R R' : σ → τ → Prop} {Q Q' : α → σ → τ → Prop} {P : β → σ → τ → Prop} {E E' : σ → τ → Prop}
  {x : Faulting σ ε α} {y : Faulting τ ε α}

/-- The relation may be strengthened before, and weakened after. -/
theorem Simulates.mono (h : Simulates R x y Q E) (hR : ∀ s t,R' s t → R s t)
    (hQ : ∀ a s t,Q a s t → Q' a s t) (hE : ∀ s t,E s t → E' s t) : Simulates R' x y Q' E' :=
  fun s t hst => (h s t (hR s t hst)).mono hQ hE

theorem simulates_pure (a : α) : Simulates (Q a) (pure a : Faulting σ ε α) (pure a) Q E :=
  fun _ _ => .ok

theorem simulates_modifyState {f : σ → σ} {g : τ → τ} {Q : Unit → σ → τ → Prop}
    (h : ∀ s t,R s t → Q () (f s) (g t)) :
    Simulates R (modifyState f : Faulting σ ε Unit) (modifyState g) Q E :=
  fun s t hst => .ok (h s t hst)

/-- A pure outcome is the same on both sides. -/
theorem simulates_ofExcept {r : Except ε α} (hQ : ∀ a s t,r=.ok a → R s t → Q a s t)
    (hE : ∀ s t,R s t → E s t) : Simulates R (ofExcept r) (ofExcept r) Q E := by
  intro s t hst
  cases r with
  | ok a => exact .ok (hQ a s t rfl hst)
  | error e => exact .error (hE s t hst)

/-- The rule of sequencing, from two results that are alike. -/
theorem SameExit.bind {s : σ} {t : τ} {f : α → Faulting σ ε β} {g : α → Faulting τ ε β}
    (h : SameExit Q E (x s) (y t)) (hf : ∀ a s t,Q a s t → SameExit P E (f a s) (g a t)) :
    SameExit P E ((x >>= f) s) ((y >>= g) t) := by
  cases hs : x s with
  | mk r s' => cases ht : y t with
    | mk r' t' =>
      rw [hs,ht] at h
      cases h with
      | ok hq =>
        rw [bind_ok hs,bind_ok ht]
        exact hf _ _ _ hq
      | error he =>
        rw [bind_error hs,bind_error ht]
        exact .error he

/-- The rule of sequencing. -/
theorem Simulates.bind {f : α → Faulting σ ε β} {g : α → Faulting τ ε β}
    (h : Simulates R x y Q E) (hf : ∀ a,Simulates (Q a) (f a) (g a) P E) :
    Simulates R (x >>= f) (y >>= g) P E :=
  fun s t hst => (h s t hst).bind fun a s' t' hq => hf a s' t' hq

theorem simulates_getState {f : σ → Faulting σ ε α} {g : τ → Faulting τ ε α}
    (h : ∀ s t,R s t → SameExit Q E (f s s) (g t t)) :
    Simulates R (getState >>= f) (getState >>= g) Q E := h

/-- A step that is left out leaves the relation as it is. -/
theorem Simulates.onlyIf {x : Faulting σ ε Unit} {y : Faulting τ ε Unit} {b : Bool}
    (h : b=true → Simulates R x y (fun _ => R) E) :
    Simulates R (FaultingState.onlyIf b x) (FaultingState.onlyIf b y) (fun _ => R) E := by
  cases b with
  | false =>
    intro s t hst
    exact SameExit.ok hst
  | true => exact h rfl

/-- Work on a part that both states have. -/
theorem SameExit.focus {σ' τ' : Type} {p : σ → Option σ'} {q : τ → Option τ'} {put : σ' → σ → σ}
    {put' : τ' → τ → τ} {missing : ε} {x : Faulting σ' ε α} {y : Faulting τ' ε α} {s : σ} {t : τ}
    {a : σ'} {b : τ'} {Q₁ : α → σ' → τ' → Prop} {E₁ : σ' → τ' → Prop} (hp : p s=some a)
    (hq : q t=some b) (h : SameExit Q₁ E₁ (x a) (y b))
    (hQ : ∀ r a' b',Q₁ r a' b' → Q r (put a' s) (put' b' t))
    (hE : ∀ a' b',E₁ a' b' → E (put a' s) (put' b' t)) :
    SameExit Q E (FaultingState.focus p put missing x s) (FaultingState.focus q put' missing y t) := by
  cases hx : x a with
  | mk r a' => cases hy : y b with
    | mk r' b' =>
      rw [hx,hy] at h
      rw [focus_eq hp hx,focus_eq hq hy]
      cases h with
      | ok h => exact .ok (hQ _ _ _ h)
      | error h => exact .error (hE _ _ h)

end Rules

section Runs

variable {R : σ → τ → Prop}

/-- What a run of calls reports, call by call. -/
def outcomes (call : A → Faulting σ ε α) : List A → σ → List (Except ε α)
  | [],_ => []
  | a::as,s => (call a s).1::outcomes call as (call a s).2

/-- Calls that simulate their image, each where the image is allowed, report what the run
of the images reports and keep the states related. -/
theorem simulates_run {x : A → Faulting σ ε α} {y : B → Faulting τ ε α} {image : A → B}
    {ok : B → τ → Prop} (hstep : ∀ a s t,ok (image a) t → R s t →
      SameExit (fun _ => R) R (x a s) (y (image a) t)) {as : List A} {s : σ} {t : τ}
    (halong : Along (fun b t => (y b t).2) ok (as.map image) t) (hst : R s t) :
    outcomes x as s=outcomes y (as.map image) t ∧
      R (runAll (fun a s => (x a s).2) as s) (runAll (fun b t => (y b t).2) (as.map image) t) := by
  induction as generalizing s t with
  | nil => exact ⟨rfl,hst⟩
  | cons a as ih =>
    have hexit := hstep a s t halong.1 hst
    obtain ⟨hout,hrel⟩ := ih halong.2 hexit.states
    refine ⟨?_,hrel⟩
    rw [List.map_cons,outcomes,outcomes,hexit.outcome,hout]

end Runs

end XynokEcs.PairedRuns
