import Mathlib.Data.List.Flatten
import Mathlib.Data.List.Nodup
import Mathlib.Data.List.Basic

/-!
# Logs regrouped by key

A log whose entries are kept in one queue for each key, and read back queue by
queue. Every entry comes back once, entries of one key in the order of the log.
The whole log comes back in its own order exactly when its keys never go back in
the order of the queues.
-/

namespace XynokEcs.KeyedLogs

variable {α κ : Type} [DecidableEq κ] {key : α → κ} {order : List κ} {log : List α}

/-- The entries of a log, key by key. -/
def byKey (key : α → κ) (order : List κ) (log : List α) : List α :=
  order.flatMap fun k => log.filter fun a => key a=k

theorem filter_byKey (p : α → Bool) :
    (byKey key order log).filter p=byKey key order (log.filter p) := by
  rw [byKey,byKey,List.filter_flatMap]
  congr 1
  funext k
  rw [List.filter_filter,List.filter_filter]
  exact List.filter_congr fun a _ => Bool.and_comm _ _

/-- A list in which what satisfies a predicate comes first splits along it. -/
theorem filter_append_of_first {p : α → Bool} (h : log.Pairwise fun a b => p b=true → p a=true) :
    log.filter p++log.filter (fun a => !p a)=log := by
  induction log with
  | nil => rfl
  | cons a log ih =>
    rw [List.pairwise_cons] at h
    cases hp : p a with
    | true =>
      rw [List.filter_cons_of_pos hp,List.filter_cons_of_neg (by rw [hp]; exact Bool.false_ne_true)]
      rw [List.cons_append,ih h.2]
    | false =>
      have hnone : log.filter p=[] := by
        rw [List.filter_eq_nil_iff]
        intro b hb hpb
        have := h.1 b hb hpb
        rw [hp] at this
        cases this
      have hall : log.filter (fun a => !p a)=log := by
        have := ih h.2
        rwa [hnone,List.nil_append] at this
      rw [List.filter_cons_of_neg (by rw [hp]; exact Bool.false_ne_true),
        List.filter_cons_of_pos (by rw [hp]; rfl),hnone,hall,List.nil_append]

/-- The keys of a list stand in the order of the queues. -/
def InOrder (key : α → κ) (order : List κ) (log : List α) : Prop :=
  log.Pairwise fun a b => order.idxOf (key a)≤order.idxOf (key b)

theorem inOrder_of_key {k : κ} (h : ∀ a∈log,key a=k) : InOrder key order log := by
  refine List.pairwise_of_forall_mem_list fun a ha b hb => Nat.le_of_eq ?_
  rw [h a ha,h b hb]

theorem byKey_of_inOrder (hm : ∀ a∈log,key a∈order) (h : InOrder key order log)
    (hn : order.Nodup) : byKey key order log=log := by
  induction order generalizing log with
  | nil =>
    have hnil : log=[] := List.eq_nil_iff_forall_not_mem.mpr fun a ha => nomatch hm a ha
    rw [hnil]
    rfl
  | cons k rest ih =>
    obtain ⟨hk,hrest⟩ := List.nodup_cons.mp hn
    have hfirst : log.Pairwise fun a b =>
        decide (key b=k)=true → decide (key a=k)=true := by
      refine h.imp fun {a b} hab hb => ?_
      rw [decide_eq_true_eq] at hb ⊢
      rw [hb,List.idxOf_cons_self,Nat.le_zero] at hab
      by_contra hne
      rw [List.idxOf_cons_ne _ (Ne.symm hne)] at hab
      cases hab
    have hsplit := filter_append_of_first hfirst
    have hlater : byKey key rest log=byKey key rest (log.filter fun a => !decide (key a=k)) := by
      refine List.flatMap_congr fun k' hk' => ?_
      rw [List.filter_filter]
      refine List.filter_congr fun a _ => ?_
      by_cases ha : key a=k'
      · have hne : k'≠k := by
          rintro rfl
          exact hk hk'
        simp [ha,hne]
      · simp [ha]
    have hih : byKey key rest (log.filter fun a => !decide (key a=k))=
        log.filter fun a => !decide (key a=k) := by
      have hkeep : ∀ a∈log.filter (fun a => !decide (key a=k)),a∈log ∧ key a≠k := by
        intro a ha
        obtain ⟨ha,hne⟩ := List.mem_filter.mp ha
        exact ⟨ha,by simpa using hne⟩
      refine ih (fun a ha => ?_) ?_ hrest
      · obtain ⟨ha,hne⟩ := hkeep a ha
        exact (List.mem_cons.mp (hm a ha)).resolve_left hne
      · refine (h.sublist List.filter_sublist).imp_of_mem fun {a b} ha hb hab => ?_
        rw [List.idxOf_cons_ne _ (Ne.symm (hkeep a ha).2),
          List.idxOf_cons_ne _ (Ne.symm (hkeep b hb).2)] at hab
        exact Nat.le_of_succ_le_succ hab
    calc byKey key (k::rest) log
        =log.filter (fun a => key a=k)++byKey key rest log := List.flatMap_cons
      _=log.filter (fun a => key a=k)++log.filter (fun a => !decide (key a=k)) := by rw [hlater,hih]
      _=log := hsplit

theorem inOrder_byKey (hn : order.Nodup) : InOrder key order (byKey key order log) := by
  refine List.pairwise_flatMap.mpr ⟨fun k _ => ?_,?_⟩
  · exact inOrder_of_key fun a ha => of_decide_eq_true (List.mem_filter.mp ha).2
  · refine List.pairwise_iff_getElem.mpr fun i j hi hj hij a ha b hb => ?_
    have ha : key a=order[i] := of_decide_eq_true (List.mem_filter.mp ha).2
    have hb : key b=order[j] := of_decide_eq_true (List.mem_filter.mp hb).2
    rw [ha,hb,hn.idxOf_getElem,hn.idxOf_getElem]
    omega

/-- A log comes back in its own order exactly when its keys do not go back. -/
theorem byKey_eq_iff (hn : order.Nodup) (hm : ∀ a∈log,key a∈order) :
    byKey key order log=log ↔ InOrder key order log := by
  refine ⟨fun h => ?_,fun h => byKey_of_inOrder hm h hn⟩
  have hsorted : InOrder key order (byKey key order log) := inOrder_byKey hn
  rwa [h] at hsorted

/-- The entries of one key come back as they were. -/
theorem byKey_filter_key (hn : order.Nodup) (hm : ∀ a∈log,key a∈order) (k : κ) :
    (byKey key order log).filter (fun a => key a=k)=log.filter fun a => key a=k := by
  rw [filter_byKey]
  refine byKey_of_inOrder (fun a ha => hm a (List.mem_filter.mp ha).1) ?_ hn
  exact inOrder_of_key fun a ha => of_decide_eq_true (List.mem_filter.mp ha).2

/-- Taking the beginning of the first queue that has anything takes the beginning
of what all queues hold. -/
theorem flatten_set_of_first {queues : List (List α)} {i : ℕ} {a b : List α}
    (h : queues[i]?=some (a++b)) (hfirst : ∀ j < i,∀ q∈queues[j]?,q=[]) :
    queues.flatten=a++(queues.set i b).flatten := by
  induction queues generalizing i with
  | nil => cases h
  | cons q queues ih => cases i with
    | zero =>
      cases Option.some.inj h
      exact List.append_assoc a b _
    | succ i =>
      have hq : q=[] := hfirst 0 (Nat.succ_pos i) q rfl
      rw [hq]
      exact ih h fun j hj => hfirst (j+1) (Nat.succ_lt_succ hj)

/-- A log is known from its keys and the entries of each key. -/
theorem eq_of_filter_key {other : List α} (hk : other.map key=log.map key)
    (hf : ∀ k,other.filter (fun a => key a=k)=log.filter fun a => key a=k) : other=log := by
  induction log generalizing other with
  | nil => exact List.map_eq_nil_iff.mp hk
  | cons a log ih => cases other with
    | nil => cases hk
    | cons b other =>
      obtain ⟨hba,hrest⟩ := List.cons.inj hk
      have hhead := hf (key a)
      rw [List.filter_cons_of_pos (by simpa using hba),List.filter_cons_of_pos (by simp)] at hhead
      obtain ⟨hab,-⟩ := List.cons.inj hhead
      subst hab
      refine congrArg _ (ih hrest fun k => ?_)
      have hk := hf k
      by_cases h : key b=k
      · rw [List.filter_cons_of_pos (by simpa using h),
          List.filter_cons_of_pos (by simpa using h)] at hk
        exact (List.cons.inj hk).2
      · rwa [List.filter_cons_of_neg (by simpa using h),
          List.filter_cons_of_neg (by simpa using h)] at hk

end XynokEcs.KeyedLogs
