import HexPulse.Proofs.Hex.Walk
import Mathlib.Data.List.Chain
import Mathlib.Data.List.Nodup
import Mathlib.Data.List.Range

/-!
# HexPulse — Proofs — Hex — Ring

The ring around a cell is walked side by side.  `Direction.height d` is how far out a cell lies
towards the side that is walked in the direction `d`; the heights towards consecutive sides are the
two coordinates of a sector.  So a side is a segment at one height (`Hex.mem_side_iff`), the largest
height is the distance, and each cell at a distance lies on exactly one of the six sides
(`Direction.exists_faces_iff`, `Direction.eq_of_faces`).
-/

namespace HexPulse

namespace Direction

/-- The next direction, clockwise. -/
def next : Direction → Direction
  | .north => .northEast
  | .northEast => .southEast
  | .southEast => .south
  | .south => .southWest
  | .southWest => .northWest
  | .northWest => .north

/-- How far out a cell lies towards the side that is walked in a direction. -/
def height : Direction → Hex → Int
  | .north, c => -c.q
  | .northEast, c => c.s
  | .southEast, c => -c.r
  | .south, c => c.q
  | .southWest, c => -c.s
  | .northWest, c => c.r

/-- The corner in which the side that is walked in a direction begins. -/
def corner (d : Direction) : Hex := d.next.opposite.offset

/-- The cell is on the side that is walked in the direction, at a distance of the origin. -/
def Faces (d : Direction) (k : Int) (c : Hex) : Prop :=
  d.height c = k ∧ 0 ≤ d.next.height c ∧ d.next.height c < k

theorem height_add (d : Direction) (a b : Hex) : d.height (a + b) = d.height a + d.height b := by
  cases d <;> simp only [height, Hex.s_add, Hex.q_add, Hex.r_add] <;> omega

theorem height_scale (d : Direction) (c : Hex) (k : Int) :
    d.height (c.scale k) = d.height c * k := by
  cases d <;> simp only [height, Hex.scale, Hex.s, Int.sub_mul, Int.neg_mul]

/-- Two heights in a row determine a cell. -/
theorem eq_of_height_eq {d : Direction} {a b : Hex} (h : d.height a = d.height b)
    (hnext : d.next.height a = d.next.height b) : a = b := by
  rw [Hex.ext_iff]
  cases d <;> simp only [next, height, Hex.s] at h hnext <;> omega

theorem height_corner (d : Direction) : d.height d.corner = 1 := by cases d <;> decide

/-- A side begins at height zero, seen in the direction of the next one. -/
theorem next_height_corner (d : Direction) : d.next.height d.corner = 0 := by cases d <;> decide

theorem height_offset (d : Direction) : d.height d.offset = 0 := by cases d <;> decide

theorem next_height_offset (d : Direction) : d.next.height d.offset = 1 := by cases d <;> decide

/-- A side stays at its height, and comes up by one towards the next side with every step. -/
theorem height_side (d : Direction) (k i : Int) :
    d.height (d.corner.scale k + d.offset.scale i) = k ∧
      d.next.height (d.corner.scale k + d.offset.scale i) = i := by
  simp only [height_add, height_scale, height_corner, next_height_corner, height_offset,
    next_height_offset]
  omega

/-- Two heights in a row tell the third. -/
theorem height_next_next (d : Direction) (c : Hex) :
    d.next.next.height c = d.next.height c - d.height c := by
  cases d <;> simp only [next, height, Hex.s] <;> omega

/-- No height is larger than the distance. -/
theorem natAbs_height_le (d : Direction) (c : Hex) : (d.height c).natAbs ≤ c.length := by
  have hlength := c.two_mul_length
  cases d <;> simp only [height, Hex.s] at hlength ⊢ <;> omega

/-- The distance is the largest of the heights. -/
theorem exists_height_eq_length (c : Hex) : ∃ d : Direction, d.height c = c.length := by
  have hlength := c.two_mul_length
  have hlargest : -c.q = c.length ∨ c.s = c.length ∨ -c.r = c.length ∨ c.q = c.length ∨
      -c.s = c.length ∨ c.r = c.length := by
    simp only [Hex.s] at hlength ⊢
    omega
  rcases hlargest with h | h | h | h | h | h
  · exact ⟨.north, h⟩
  · exact ⟨.northEast, h⟩
  · exact ⟨.southEast, h⟩
  · exact ⟨.south, h⟩
  · exact ⟨.southWest, h⟩
  · exact ⟨.northWest, h⟩

theorem Faces.length {d : Direction} {c : Hex} {k : Int} (h : d.Faces k c) : c.length = k := by
  have hlength := c.two_mul_length
  unfold Faces at h
  cases d <;> simp only [next, height, Hex.s] at h hlength <;> omega

/-- The cells at a distance are those that are on some side. -/
theorem exists_faces_iff {c : Hex} {k : Nat} (hk : 0 < k) :
    (∃ d : Direction, d.Faces k c) ↔ c.length = k := by
  constructor
  · rintro ⟨d, hd⟩
    exact Int.ofNat_inj.mp hd.length
  · rintro rfl
    obtain ⟨d, hd⟩ := exists_height_eq_length c
    have hnext := natAbs_height_le d.next c
    have hturn := natAbs_height_le d.next.next c
    rw [height_next_next] at hturn
    by_cases hcorner : d.next.height c < c.length
    · exact ⟨d, hd, by omega, hcorner⟩
    · -- the last cell of a side is the corner in which the next one begins
      exact ⟨d.next, by omega, by rw [height_next_next]; omega, by rw [height_next_next]; omega⟩

/-- No cell is on two sides. -/
theorem eq_of_faces {d d' : Direction} {c : Hex} {k : Int} (h : d.Faces k c) (h' : d'.Faces k c) :
    d = d' := by
  unfold Faces at h h'
  cases d <;> cases d' <;> simp only [next, height, Hex.s, reduceCtorEq] at h h' ⊢ <;> omega

end Direction

namespace Hex
open Direction

/-- The cells of one side of a ring. -/
def side (c : Hex) (k : Nat) (d : Direction) : List Hex :=
  (List.range k).map fun (i : Nat) => c + d.corner.scale k + d.offset.scale i

/-! ### Straight walks -/

/-- A walk goes on where its first part ends. -/
theorem walk_append (c : Hex) (ds es : List Direction) :
    c.walk (ds ++ es) = c.walk ds ++ (c.walkEnd ds).walk es := by
  induction ds generalizing c with
  | nil => rfl
  | cons d ds ih => exact congrArg (c :: ·) (ih (c.neighbor d))

theorem neighbor_scale (c : Hex) (d : Direction) (i : Int) :
    c.neighbor d + d.offset.scale i = c + d.offset.scale (i + 1) := by
  simp only [Hex.ext_iff, neighbor, scale, q_add, r_add, Int.mul_add]
  omega

/-- A straight walk ends as many offsets away as it has steps. -/
theorem walkEnd_replicate (c : Hex) (d : Direction) (k : Nat) :
    c.walkEnd (List.replicate k d) = c + d.offset.scale k := by
  induction k generalizing c with
  | zero => simp [Hex.ext_iff, scale]
  | succ k ih =>
    rw [List.replicate_succ, walkEnd_cons, ih, neighbor_scale]
    rfl

theorem walk_replicate (c : Hex) (d : Direction) (k : Nat) :
    c.walk (List.replicate k d) = (List.range k).map fun (i : Nat) => c + d.offset.scale i := by
  induction k generalizing c with
  | zero => rfl
  | succ k ih =>
    have hfirst : c = c + d.offset.scale (0 : Nat) := by simp [Hex.ext_iff, scale]
    rw [List.replicate_succ, walk, ih, List.range_succ_eq_map, List.map_cons, List.map_map, ← hfirst]
    refine congrArg (c :: ·) (List.map_congr_left fun i _ => ?_)
    exact neighbor_scale c d i

/-- Sides that are walked one after the other join where the first ends. -/
theorem walk_sides (c : Hex) (k : Nat) {d : Direction} {ds : List Direction}
    (h : (d :: ds).IsChain fun d d' => d.corner + d.offset = d'.corner) :
    (c + d.corner.scale k).walk ((d :: ds).flatMap (List.replicate k)) =
      (d :: ds).flatMap (c.side k) := by
  induction ds generalizing d with
  | nil => simp [side, walk_replicate]
  | cons d' ds ih =>
    obtain ⟨hcorner, h⟩ := List.isChain_cons_cons.mp h
    have hend : c + d.corner.scale k + d.offset.scale k = c + d'.corner.scale k := by
      rw [← hcorner]
      simp only [Hex.ext_iff, scale, q_add, r_add, Int.add_mul]
      omega
    rw [List.flatMap_cons, walk_append, walk_replicate, walkEnd_replicate, hend, ih h]
    rfl

/-- A ring goes along its six sides. -/
theorem ring_eq_sides (c : Hex) {k : Nat} (hk : 0 < k) :
    c.ring k = Direction.all.flatMap (c.side k) := by
  have hchain : Direction.all.IsChain fun d d' => d.corner + d.offset = d'.corner := by decide
  rw [ring, if_neg (by omega)]
  exact walk_sides c k hchain

/-! ### What lies on a ring -/

/-- The cells of a side are those that face it. -/
theorem mem_side_iff {c x : Hex} {k : Nat} {d : Direction} :
    x ∈ c.side k d ↔ d.Faces k (x - c) := by
  have hsub (i : Nat) : c + d.corner.scale k + d.offset.scale i = x ↔
      d.corner.scale k + d.offset.scale i = x - c := by
    simp only [Hex.ext_iff, q_add, r_add, q_sub, r_sub]
    omega
  simp only [side, List.mem_map, List.mem_range, hsub]
  constructor
  · rintro ⟨i, hi, h⟩
    obtain ⟨hheight, hnext⟩ := height_side d k i
    rw [h] at hheight hnext
    exact ⟨hheight, by omega, by omega⟩
  · rintro ⟨hheight, hlow, hhigh⟩
    obtain ⟨i, hi⟩ := Int.eq_ofNat_of_zero_le hlow
    obtain ⟨hside, hside'⟩ := height_side d k i
    exact ⟨i, by omega, eq_of_height_eq (hside.trans hheight.symm) (hside'.trans hi.symm)⟩

/-- **The ring holds the cells at its distance.** -/
theorem mem_ring_iff {c x : Hex} {k : Nat} (hk : 0 < k) : x ∈ c.ring k ↔ c.distance x = k := by
  rw [ring_eq_sides c hk, List.mem_flatMap, distance_comm, distance, ← exists_faces_iff hk]
  simp only [Direction.mem_all, true_and, mem_side_iff]

/-- No cell is passed twice. -/
theorem nodup_ring (c : Hex) {k : Nat} (hk : 0 < k) : (c.ring k).Nodup := by
  have hall : Direction.all.Nodup := by decide
  rw [ring_eq_sides c hk]
  refine List.nodup_flatMap.mpr ⟨fun d _ => ?_, hall.imp fun {d d'} hne x hx hx' => ?_⟩
  · refine List.nodup_range.map fun i j hij => ?_
    -- the height towards the next side tells the cells of one side apart
    have hnext := congrArg d.next.height hij
    simp only [height_add, height_scale, next_height_offset] at hnext
    omega
  · exact hne (eq_of_faces (mem_side_iff.mp hx) (mem_side_iff.mp hx'))

/-- **A ring of radius `k` has `6k` cells.** -/
theorem length_ring (c : Hex) {k : Nat} (hk : 0 < k) : (c.ring k).length = 6 * k := by
  have hside (d : Direction) : (c.side k d).length = k := by
    rw [side, List.length_map, List.length_range]
  rw [ring_eq_sides c hk]
  simp only [Direction.all, List.flatMap_cons, List.flatMap_nil, List.length_append, hside,
    List.length_nil]
  omega

/-! ### The way around -/

theorem walkEnd_append (c : Hex) (ds es : List Direction) :
    c.walkEnd (ds ++ es) = (c.walkEnd ds).walkEnd es :=
  List.foldl_append

theorem head?_walk (c : Hex) (ds : List Direction) :
    (c.walk ds ++ [c.walkEnd ds]).head? = some c := by
  cases ds <;> rfl

/-- A walk goes from neighbour to neighbour. -/
theorem isChain_walk (c : Hex) (ds : List Direction) :
    (c.walk ds ++ [c.walkEnd ds]).IsChain fun a b => b ∈ a.neighbors := by
  induction ds generalizing c with
  | nil => exact List.isChain_singleton c
  | cons d ds ih =>
    refine List.isChain_cons.mpr ⟨fun x hx => ?_, ih (c.neighbor d)⟩
    obtain rfl : c.neighbor d = x := Option.some.inj ((head?_walk (c.neighbor d) ds).symm.trans hx)
    exact mem_neighbors_iff.mpr ⟨d, rfl⟩

/-- Six sides of one length lead back to where they began. -/
theorem walkEnd_around (c : Hex) (k : Nat) :
    c.walkEnd (Direction.all.flatMap (List.replicate k)) = c := by
  simp only [Direction.all, List.flatMap_cons, List.flatMap_nil, walkEnd_append, walkEnd_replicate,
    walkEnd_nil, Hex.ext_iff, q_add, r_add, scale, offset]
  omega

/-- A ring is a walk that ends where it began. -/
theorem exists_ring_closed (c : Hex) {k : Nat} (hk : 0 < k) : ∃ first,
    (c.ring k).head? = some first ∧ (c.ring k ++ [first]).IsChain fun a b => b ∈ a.neighbors := by
  let first := c + Direction.southWest.offset.scale k
  have hring : c.ring k = first.walk (Direction.all.flatMap (List.replicate k)) :=
    if_neg (by omega)
  have hne : c.ring k ≠ [] := List.ne_nil_of_length_pos (by rw [length_ring c hk]; omega)
  have hhead := head?_walk first (Direction.all.flatMap (List.replicate k))
  have hchain := isChain_walk first (Direction.all.flatMap (List.replicate k))
  rw [walkEnd_around, ← hring] at hhead hchain
  rw [List.head?_append_of_ne_nil _ hne] at hhead
  exact ⟨first, hhead, hchain⟩

/-- **A ring of a radius of at least one is a closed walk through the cells at that distance**: it
passes each of them once and no others, `6 * k` in all, from neighbour to neighbour, and the last is
a neighbour of the first. -/
theorem ring_around (c : Hex) {k : Int} (hk : 1 ≤ k) :
    (∀ x, x ∈ c.ring k ↔ (c.distance x : Int) = k) ∧ (c.ring k).Nodup ∧
      ((c.ring k).length : Int) = 6 * k ∧ ((c.ring k).IsChain fun a b => b ∈ a.neighbors) ∧
      ∃ first last, (c.ring k).head? = some first ∧ (c.ring k).getLast? = some last ∧
        first ∈ last.neighbors := by
  obtain ⟨k, rfl⟩ := Int.eq_ofNat_of_zero_le (by omega : 0 ≤ k)
  have hpos : 0 < k := by omega
  have hlength := length_ring c hpos
  obtain ⟨first, hfirst, hclosed⟩ := exists_ring_closed c hpos
  obtain ⟨hchain, -, hjoin⟩ := List.isChain_append.mp hclosed
  obtain ⟨last, hlast⟩ : ∃ last, (c.ring k).getLast? = some last :=
    ⟨_, List.getLast?_eq_some_getLast (List.ne_nil_of_length_pos (by omega))⟩
  exact ⟨fun x => (mem_ring_iff hpos).trans Int.ofNat_inj.symm, nodup_ring c hpos, by omega, hchain,
    first, last, hfirst, hlast, hjoin last hlast first rfl⟩

/-- The ring of radius three around a cell off the origin. -/
theorem ring_around_three :
    (1 : Int) ≤ 3 ∧ (∀ x, x ∈ ring ⟨1, 1⟩ 3 ↔ (distance ⟨1, 1⟩ x : Int) = 3) ∧
      (ring ⟨1, 1⟩ 3).Nodup ∧ ((ring ⟨1, 1⟩ 3).length : Int) = 18 ∧
      ((ring ⟨1, 1⟩ 3).IsChain fun a b => b ∈ a.neighbors) ∧
      ∃ first last, (ring ⟨1, 1⟩ 3).head? = some first ∧ (ring ⟨1, 1⟩ 3).getLast? = some last ∧
        first ∈ last.neighbors :=
  ⟨by decide, ring_around ⟨1, 1⟩ (by decide)⟩

end Hex

end HexPulse
