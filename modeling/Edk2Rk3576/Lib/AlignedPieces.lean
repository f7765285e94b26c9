import Edk2Rk3576.Lib.Pieces
import Mathlib.Algebra.Group.Nat.Defs

/-!
# A range in aligned pieces

An aligned piece is `2 ^ j` cells from a multiple of `2 ^ j` on. A range taken by the widest aligned
piece, of at most `2 ^ k` cells, each time, has every other such piece of the range inside of one of
those taken; so the range cannot be made up of fewer.
-/

/-- The width, of at most `2 ^ k`, of the widest aligned piece at `a` with `n` cells left. -/
def widest : (k : ℕ) → (a n : ℕ) → ℕ
  | 0, _, _ => 1
  | k + 1, a, n => if 2 ^ (k + 1) ∣ a ∧ 2 ^ (k + 1) ≤ n then 2 ^ (k + 1) else widest k a n

/-- A piece of `2 ^ j` cells, `j ≤ k`, from a multiple of that on. -/
def AlignedPiece (k : ℕ) (p : ℕ × ℕ) : Prop := ∃ j ≤ k, p.2 = 2 ^ j ∧ 2 ^ j ∣ p.1

variable {k j a b c n fuel : ℕ} {p : ℕ × ℕ} {ps qs : List (ℕ × ℕ)}

theorem alignedPiece_widest (a n : ℕ) : ∀ k, AlignedPiece k (a, widest k a n)
  | 0 => ⟨0, Nat.le_refl 0, rfl, Nat.one_dvd a⟩
  | k + 1 => by
    rw [widest]
    split_ifs with h
    · exact ⟨k + 1, Nat.le_refl _, rfl, h.1⟩
    · obtain ⟨j, hj, heq, hdvd⟩ := alignedPiece_widest a n k
      exact ⟨j, by omega, heq, hdvd⟩

theorem widest_pos : 0 < widest k a n := by
  obtain ⟨j, -, heq, -⟩ := alignedPiece_widest a n k
  have heq : widest k a n = 2 ^ j := heq
  rw [heq]
  exact Nat.two_pow_pos j

theorem widest_le (hn : 0 < n) : ∀ k, widest k a n ≤ n
  | 0 => hn
  | k + 1 => by
    rw [widest]
    split_ifs with h
    · exact h.2
    · exact widest_le hn k

theorem two_pow_le_widest (hdvd : 2 ^ j ∣ a) (hn : 2 ^ j ≤ n) : ∀ {k}, j ≤ k → 2 ^ j ≤ widest k a n
  | 0, hj => by
    obtain rfl : j = 0 := by omega
    exact Nat.le_refl _
  | k + 1, hj => by
    rw [widest]
    split_ifs with h
    · exact Nat.pow_le_pow_right (by omega) hj
    · rcases Nat.lt_or_ge k j with hlt | hge
      · obtain rfl : j = k + 1 := by omega
        exact absurd ⟨hdvd, hn⟩ h
      · exact two_pow_le_widest hdvd hn hge

/-- Which multiple of `2 ^ k` the range lies behind makes no difference. -/
theorem widest_add_dvd (hdvd : 2 ^ k ∣ c) : widest k (a + c) n = widest k a n := by
  induction k with
  | zero => rfl
  | succ k ih =>
    rw [widest, widest]
    exact if_congr (and_congr_left fun _ => (Nat.dvd_add_iff_left hdvd).symm) rfl
      (ih (Nat.dvd_trans (Nat.pow_dvd_pow 2 (by omega)) hdvd))

theorem pieces_widest_add (hdvd : 2 ^ k ∣ c) : pieces (widest k) fuel (a + c) n
    = (pieces (widest k) fuel a n).map fun p => (p.1 + c, p.2) := by
  induction fuel generalizing a n with
  | zero => rfl
  | succ fuel ih =>
    rw [pieces, pieces, widest_add_dvd hdvd, show a + c + widest k a n = a + widest k a n + c by omega,
      ih]
    split_ifs <;> rfl

theorem tiles_widest (hfuel : n ≤ fuel) : Tiles a (pieces (widest k) fuel a n) (a + n) :=
  tiles_pieces (fun _ _ hn => ⟨widest_pos, widest_le hn k⟩) hfuel

theorem alignedPiece_of_mem (h : p ∈ pieces (widest k) fuel a n) : AlignedPiece k p := by
  obtain ⟨n, -, heq⟩ := mem_pieces h
  obtain ⟨j, hj, hpow, hdvd⟩ := alignedPiece_widest p.1 n k
  exact ⟨j, hj, heq.trans hpow, hdvd⟩

/-- An aligned piece that starts inside of the widest one at `a` ends inside of it: were it wider,
it would start at a multiple of the other's width, which only `a` is. -/
theorem AlignedPiece.le_widest (h : AlignedPiece k p) (ha : a ≤ p.1)
    (hlt : p.1 < a + widest k a n) (hend : p.1 + p.2 ≤ a + n) :
    p.1 + p.2 ≤ a + widest k a n := by
  obtain ⟨j, hj, hwidth, hdvd⟩ := h
  obtain ⟨i, -, hi, hdvdi⟩ := alignedPiece_widest a n k
  have hi : widest k a n = 2 ^ i := hi
  have hdvdi : 2 ^ i ∣ a := hdvdi
  rw [hi] at hlt ⊢
  rcases Nat.lt_or_ge i j with hij | hij
  · -- the start is a multiple of `2 ^ i` less than `2 ^ i` above one
    have hmul : 2 ^ i ∣ p.1 - a := Nat.dvd_sub
      (Nat.dvd_trans (Nat.pow_dvd_pow 2 (Nat.le_of_lt hij)) hdvd) hdvdi
    have hzero : p.1 - a = 0 := Nat.eq_zero_of_dvd_of_lt hmul (by omega)
    obtain rfl : p.1 = a := by omega
    have hle := two_pow_le_widest hdvd (by omega : 2 ^ j ≤ n) hj
    rw [hi] at hle
    omega
  · -- from the start to the end of the widest one is a multiple of `2 ^ j`
    have hmul : 2 ^ j ∣ a + 2 ^ i - p.1 :=
      Nat.dvd_sub (Nat.dvd_add (Nat.dvd_trans (Nat.pow_dvd_pow 2 hij) hdvdi)
        (Nat.pow_dvd_pow 2 hij)) hdvd
    have hle := Nat.le_of_dvd (by omega) hmul
    omega

/-- Every aligned piece of the range is inside of one of those taken. -/
theorem exists_piece_of_aligned (hfuel : n ≤ fuel) (h : AlignedPiece k p) (ha : a ≤ p.1)
    (hend : p.1 + p.2 ≤ a + n) :
    ∃ q ∈ pieces (widest k) fuel a n, q.1 ≤ p.1 ∧ p.1 + p.2 ≤ q.1 + q.2 := by
  have hpos : 0 < p.2 := by
    obtain ⟨j, -, hwidth, -⟩ := h
    rw [hwidth]
    exact Nat.two_pow_pos j
  induction fuel generalizing a n with
  | zero => omega
  | succ fuel ih =>
    have hle := @widest_le a n (by omega) k
    rw [pieces, if_neg (by omega)]
    rcases Nat.lt_or_ge p.1 (a + widest k a n) with hlt | hge
    · exact ⟨_, List.mem_cons_self, ha, h.le_widest ha hlt hend⟩
    · have hfirst := @widest_pos k a n
      obtain ⟨q, hq, hin⟩ := @ih (a + widest k a n) (n - widest k a n) (by omega) hge (by omega)
      exact ⟨q, List.mem_cons_of_mem _ hq, hin⟩

theorem Tiles.le : ∀ {ps : List (ℕ × ℕ)} {a : ℕ}, Tiles a ps b → a ≤ b
  | [], _, h => Nat.le_of_eq h
  | p :: ps, a, h => by
    have := h.2.2.le
    omega

/-- A point inside of the range that no piece has in its inside is where a piece ends. -/
theorem Tiles.split : ∀ {ps : List (ℕ × ℕ)} {a : ℕ}, Tiles a ps b → a ≤ c → c ≤ b →
    (∀ p ∈ ps, p.1 < c → p.1 + p.2 ≤ c) →
    ∃ front back, ps = front ++ back ∧ Tiles a front c ∧ Tiles c back b
  | ps, a, h, ha, hb, hcut => by
    rcases Nat.eq_or_lt_of_le ha with rfl | hlt
    · exact ⟨[], ps, rfl, rfl, h⟩
    · cases ps with
      | nil =>
        have hab : a = b := h
        omega
      | cons p ps =>
        obtain ⟨rfl, hpos, hrest⟩ := h
        have hend := hcut p List.mem_cons_self hlt
        obtain ⟨front, back, rfl, hfront, hback⟩ := hrest.split hend hb
          fun q hq => hcut q (List.mem_cons_of_mem p hq)
        exact ⟨p :: front, back, rfl, ⟨rfl, hpos, hfront⟩, hback⟩

theorem Tiles.mem_bounds : ∀ {ps : List (ℕ × ℕ)} {a : ℕ}, Tiles a ps b → p ∈ ps →
    a ≤ p.1 ∧ p.1 + p.2 ≤ b
  | q :: ps, a, h, hp => by
    obtain ⟨rfl, -, hrest⟩ := h
    rcases List.mem_cons.1 hp with rfl | hp
    · exact ⟨Nat.le_refl _, hrest.le⟩
    · have := hrest.mem_bounds hp
      omega

/-- The pieces before one go up to it. -/
theorem Tiles.before : ∀ {front back : List (ℕ × ℕ)} {a : ℕ}, Tiles a (front ++ p :: back) b →
    Tiles a front p.1
  | [], _, _, h => h.1.symm
  | _ :: _, _, _, h => ⟨h.1, h.2.1, h.2.2.before⟩

/-- Those behind it go on where it ends. -/
theorem Tiles.after : ∀ {front back : List (ℕ × ℕ)} {a : ℕ}, Tiles a (front ++ p :: back) b →
    Tiles (p.1 + p.2) back b
  | [], _, _, h => h.1 ▸ h.2.2
  | _ :: _, _, _, h => h.2.2.after

/-- Every cell of the range is in a piece. -/
theorem Tiles.exists_piece : ∀ {ps : List (ℕ × ℕ)} {a : ℕ}, Tiles a ps b → a ≤ c → c < b →
    ∃ front p back, ps = front ++ p :: back ∧ p.1 ≤ c ∧ c < p.1 + p.2
  | [], _, h, ha, hb => by
    obtain rfl := h
    omega
  | p :: ps, a, h, ha, hb => by
    obtain ⟨rfl, -, hrest⟩ := h
    rcases Nat.lt_or_ge c (p.1 + p.2) with hlt | hge
    · exact ⟨[], p, ps, rfl, ha, hlt⟩
    · obtain ⟨front, q, back, rfl, hq⟩ := hrest.exists_piece hge hb
      exact ⟨p :: front, q, back, rfl, hq⟩

/-- No other way to make up the range of aligned pieces takes fewer. -/
theorem length_pieces_widest_le (hfuel : n ≤ fuel) (hqs : Tiles a qs (a + n))
    (hall : ∀ q ∈ qs, AlignedPiece k q) : (pieces (widest k) fuel a n).length ≤ qs.length := by
  induction fuel generalizing a n qs with
  | zero => exact Nat.zero_le _
  | succ fuel ih =>
    rw [pieces]
    split_ifs with h0
    · exact Nat.zero_le _
    · have hpos := @widest_pos k a n
      have hle := @widest_le a n (by omega) k
      obtain ⟨front, back, rfl, hfront, hback⟩ := hqs.split
        (Nat.le_add_right a (widest k a n)) (by omega) fun q hq hlt =>
          (hall q hq).le_widest (hqs.mem_bounds hq).1 hlt (hqs.mem_bounds hq).2
      have hrest := @ih (a + widest k a n) (n - widest k a n) back (by omega)
        (by rwa [show a + widest k a n + (n - widest k a n) = a + n by omega])
        fun q hq => hall q (List.mem_append_right front hq)
      -- the front is not empty, as it goes from `a` to the end of the first piece
      have hne : 0 < front.length := by
        rcases front with _ | ⟨q, front⟩
        · have : a = a + widest k a n := hfront
          omega
        · exact Nat.succ_pos _
      rw [List.length_cons, List.length_append]
      omega
