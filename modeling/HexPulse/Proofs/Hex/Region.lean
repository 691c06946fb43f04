import HexPulse.Proofs.Hex.Disc
import HexPulse.Proofs.Hex.Ring
import HexPulse.Proofs.Script
import Mathlib.Tactic.Ring

/-!
# HexPulse — Proofs — Hex — Region

What a region holds, whatever is written to it.  The next larger disc has one ring more
(`Hex.disc_succ_perm`), which counts its cells (`Hex.length_disc`).  A write is told once more as a
script, on a region that keeps what was written before a refusal (`Script.assign`); it never changes
which cells are held (`Region.frame_attempts`), so these are the cells within the radius after any
writes (`Region.domain_exact`).
-/

namespace HexPulse

variable {β : Type}

/-! ### Counting the cells -/

namespace Hex

/-- A disc is the next smaller one with a ring around it. -/
theorem disc_succ_perm (c : Hex) (n : Nat) :
    (c.disc (n + 1 : Nat)).Perm (c.disc n ++ c.ring (n + 1 : Nat)) := by
  have hpos : 0 < n + 1 := by omega
  have hapart : (c.disc n).Disjoint (c.ring (n + 1 : Nat)) := by
    intro x hx hx'
    have hdisc := mem_disc_iff.mp hx
    have hring := (mem_ring_iff hpos).mp hx'
    rw [distance_comm] at hring
    omega
  refine (List.perm_ext_iff_of_nodup (nodup_disc _ _)
    (List.nodup_append'.mpr ⟨nodup_disc _ _, nodup_ring c hpos, hapart⟩)).mpr fun x => ?_
  rw [List.mem_append, mem_disc_iff, mem_disc_iff, mem_ring_iff hpos, distance_comm c x]
  omega

/-- **A disc of radius `n` has `3n(n + 1) + 1` cells.** -/
theorem length_disc (c : Hex) (n : Nat) : (c.disc n).length = 3 * n * (n + 1) + 1 := by
  induction n with
  | zero => simp [disc, intRange]
  | succ n ih =>
    rw [(disc_succ_perm c n).length_eq, List.length_append, ih, length_ring c (by omega)]
    ring

end Hex

/-! ### Writes -/

/-- Writes the entry of a cell; the cell is looked up first. -/
def Script.assign (c : Hex) (v : β) : Script Region.Outside (Region β) Unit := do
  if (← current).contains c then write fun m => m.put c v else stop ⟨c⟩

namespace Region

/-- A write that is refused has written nothing. -/
theorem assign_apply (m : Region β) (c : Hex) (v : β) :
    Script.assign c v m = Script.ending m ((m.assign c v).map fun n => ((), n)) := by
  change (if m.contains c then Script.write fun m => m.put c v else Script.stop (Outside.mk c)) m = _
  rw [assign]
  split <;> rfl

/-- The region that a write leaves behind, refused or not. -/
def attempt (m : Region β) (w : Hex × β) : Region β := (Script.assign w.1 w.2 m).2

variable {m : Region β} {c : Hex}

theorem exists_get?_iff : (∃ v, m.get? c = some v) ↔ c ∈ m.cells.keys :=
  Option.isSome_iff_exists.symm.trans Table.contains_iff_mem_keys

theorem exists_entry_iff : (∃ v, m.entry c = .ok v) ↔ c ∈ m.cells.keys := by
  rw [← exists_get?_iff, entry]
  cases m.get? c with
  | some v => exact ⟨fun _ => ⟨v, rfl⟩, fun _ => ⟨v, rfl⟩⟩
  | none => exact ⟨nofun, nofun⟩

theorem assign_of_mem (h : c ∈ m.cells.keys) (v : β) : m.assign c v = .ok (m.put c v) :=
  if_pos (Table.contains_iff_mem_keys.mpr h)

/-- A write to any other cell is refused. -/
theorem assign_of_notMem (h : c ∉ m.cells.keys) (v : β) : m.assign c v = .error ⟨c⟩ :=
  if_neg (mt Table.contains_iff_mem_keys.mp h)

/-- A write changes neither the cells that are held, nor their order. -/
theorem frame_attempt (m : Region β) (w : Hex × β) : (m.attempt w).center = m.center ∧
    (m.attempt w).radius = m.radius ∧ (m.attempt w).cells.keys = m.cells.keys := by
  rw [attempt, assign_apply]
  by_cases h : w.1 ∈ m.cells.keys
  · rw [assign_of_mem h]
    exact ⟨rfl, rfl, keys_put _ _ _⟩
  · rw [assign_of_notMem h]
    exact ⟨rfl, rfl, rfl⟩

/-- Writes change neither the cells that are held, nor their order. -/
theorem frame_attempts (m : Region β) (ws : List (Hex × β)) :
    (ws.foldl attempt m).center = m.center ∧ (ws.foldl attempt m).radius = m.radius ∧
      (ws.foldl attempt m).cells.keys = m.cells.keys := by
  induction ws generalizing m with
  | nil => exact ⟨rfl, rfl, rfl⟩
  | cons w ws ih =>
    obtain ⟨hcenter, hradius, hkeys⟩ := ih (m.attempt w)
    obtain ⟨hcenter', hradius', hkeys'⟩ := frame_attempt m w
    exact ⟨hcenter.trans hcenter', hradius.trans hradius', hkeys.trans hkeys'⟩

/-- **Whatever was written to a region, it holds the cells within its radius, each once**, and all
questions whether it holds a cell have this answer.  A write to such a cell changes the entry of this
cell and nothing else; one to any other cell is refused and changes nothing. -/
theorem domain_exact (center : Hex) (radius : Int) (f : Hex → β) (ws : List (Hex × β)) :
    let m := ws.foldl attempt (ofFn center radius f)
    m.cells.keys.Nodup ∧
      (∀ c, (c ∈ m.cells.keys ↔ (c.distance center : Int) ≤ radius) ∧
        (m.inBounds c = true ↔ c ∈ m.cells.keys) ∧ (m.contains c = true ↔ c ∈ m.cells.keys) ∧
        ((∃ v, m.get? c = some v) ↔ c ∈ m.cells.keys) ∧
        ((∃ v, m.entry c = .ok v) ↔ c ∈ m.cells.keys)) ∧
      (0 ≤ radius → (m.cells.size : Int) = 3 * radius * (radius + 1) + 1) ∧
      ∀ c v,
        (c ∈ m.cells.keys → ∃ n, m.assign c v = .ok n ∧ Script.assign c v m = (.ok (), n) ∧
          n.get? c = some v ∧ (∀ c', c' ≠ c → n.get? c' = m.get? c') ∧
          n.center = m.center ∧ n.radius = m.radius ∧ n.cells.keys = m.cells.keys) ∧
        (c ∉ m.cells.keys → m.assign c v = .error ⟨c⟩ ∧ Script.assign c v m = (.error ⟨c⟩, m)) := by
  intro m
  -- the cells that are held are the disc of the start, whatever was written
  obtain ⟨hcenter, hradius, hkeys⟩ := frame_attempts (ofFn center radius f) ws
  rw [keys_ofFn] at hkeys
  have hmem (c : Hex) : c ∈ m.cells.keys ↔ (c.distance center : Int) ≤ radius := by
    rw [hkeys, Hex.mem_disc_iff]
  have hin (c : Hex) : m.inBounds c = true ↔ c ∈ m.cells.keys := by
    rw [hmem, inBounds, decide_eq_true_iff, hcenter, hradius]
    rfl
  refine ⟨hkeys ▸ Hex.nodup_disc center radius, fun c => ⟨hmem c, hin c, Table.contains_iff_mem_keys,
    exists_get?_iff, exists_entry_iff⟩, fun hpos => ?_, fun c v => ⟨fun h => ?_, fun h => ?_⟩⟩
  · obtain ⟨n, rfl⟩ := Int.eq_ofNat_of_zero_le hpos
    rw [← Table.length_keys, hkeys, Hex.length_disc]
    push_cast
    rfl
  · obtain ⟨u, hu⟩ := exists_get?_iff.mpr h
    have hassign := assign_of_mem h v
    refine ⟨m.put c v, hassign, ?_, get?_put_self hu v, fun c' hne => get?_put_of_ne m v hne, rfl, rfl,
      keys_put m c v⟩
    rw [assign_apply, hassign]
    rfl
  · have hassign := assign_of_notMem h v
    refine ⟨hassign, ?_⟩
    rw [assign_apply, hassign]
    rfl

end Region

end HexPulse
