import XynokEcs.WorldRuns

/-!
# Ticks that wrap

A tick counts the calls of `advance_tick` modulo `2^32`. Two ticks are compared by
their distance from the current one, so the comparison is the order of the true
times as long as neither lies `2^32` calls back.
-/

namespace XynokEcs.ChangeTicks

open FaultingState ChunkRows WorldState WorldCalls WorldRuns

variable {V : Type} {w : World V}

/-- `is_newer_than`. -/
def isNewerThan (componentTick lastRunTick thisRunTick : ChangedTick) : Bool :=
  let ticksSinceComponent := thisRunTick-componentTick
  let ticksSinceLastRun := thisRunTick-lastRunTick
  ticksSinceComponent<ticksSinceLastRun

/-- The world after some calls of `advance_tick`. -/
def World.advanced (n : ℕ) (w : World V) : World V := (fun w => (advanceTick w).2)^[n] w

theorem tick_advanceTick (w : World V) : (advanceTick w).2.tick=w.tick+1 := rfl

theorem advanced_succ (n : ℕ) (w : World V) :
    World.advanced (n+1) w=World.advanced n (advanceTick w).2 := Function.iterate_succ_apply _ n w

/-- The tick counts the calls, modulo its range. -/
theorem tick_advanced (n : ℕ) (w : World V) :
    (World.advanced n w).tick.toNat=(w.tick.toNat+n)%2^32 := by
  induction n generalizing w with
  | zero => exact (Nat.mod_eq_of_lt w.tick.toNat_lt).symm
  | succ n ih =>
    rw [advanced_succ,ih,tick_advanceTick,UInt32.toNat_add]
    have : (1 : UInt32).toNat=1 := rfl
    omega

/-- The distance between two ticks is the number of calls between them. -/
theorem ticks_since (w : World V) {t now : ℕ} (ht : t ≤ now) (hd : now-t < 2^32) :
    ((World.advanced now w).tick-(World.advanced t w).tick).toNat=now-t := by
  rw [UInt32.toNat_sub,tick_advanced,tick_advanced]
  omega

/-- Comparing wrapped ticks compares the times they were taken at, however often the
counter wrapped in between. -/
theorem isNewerThan_iff (w : World V) {tWrite tLast now : ℕ} (hw : tWrite ≤ now) (hl : tLast ≤ now)
    (hwd : now-tWrite < 2^32) (hld : now-tLast < 2^32) :
    isNewerThan (World.advanced tWrite w).tick (World.advanced tLast w).tick
      (World.advanced now w).tick=true ↔ tLast < tWrite := by
  rw [isNewerThan,decide_eq_true_eq,UInt32.lt_iff_toNat_lt,ticks_since w hw hwd,
    ticks_since w hl hld]
  omega

/-- A write just after a run that lies as far back as can be told. -/
theorem isNewerThan_iff_farthest :
    isNewerThan (World.advanced 1 (World.new inOrder : World ℕ)).tick
      (World.advanced 0 (World.new inOrder : World ℕ)).tick
      (World.advanced 4294967295 (World.new inOrder : World ℕ)).tick=true ↔ 0 < 1 :=
  isNewerThan_iff (World.new inOrder) (by omega) (by omega) (by omega) (by omega)

end XynokEcs.ChangeTicks
