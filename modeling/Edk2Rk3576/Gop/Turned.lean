import Edk2Rk3576.Gop.Inside

/-!
# The turned blitter

The two blitters go through their rows in the same order, and a row of one is a column of the other.
So they give the same picture as soon as each row does, and a row can differ in one way only: a copy
within a row, to the right and onto itself, is a `CopyMem` in one and goes pixel by pixel from the
left in the other.
-/

namespace Edk2Rk3576

open Cells

variable (m : GopMode)

/-- The frame `g` shows the picture of `f` turned by 90 degrees. -/
def GopMode.Rotated (f g : Cells UInt32) : Prop :=
  ∀ x < m.horizontalResolution, ∀ y < m.verticalResolution, g (m.turned x y) = f (m.index x y)

structure GopMode.Turned (s s' : BltState) : Prop where
  frame : m.Rotated s.frame s'.frame
  buffer : s.buffer = s'.buffer

variable {m}

theorem GopMode.turned_inj {x y x' y' : ℕ} (hy : y < m.verticalResolution)
    (hy' : y' < m.verticalResolution) : m.turned x y = m.turned x' y' ↔ x = x' ∧ y = y' := by
  refine ⟨fun h => ?_, fun ⟨h₁, h₂⟩ => by rw [h₁, h₂]⟩
  have hmod := congrArg (· % m.verticalResolution) h
  have hdiv := congrArg (· / m.verticalResolution) h
  have hlt : m.verticalResolution - 1 - y < m.verticalResolution := by omega
  have hlt' : m.verticalResolution - 1 - y' < m.verticalResolution := by omega
  have hpos : 0 < m.verticalResolution := by omega
  unfold GopMode.turned at hmod hdiv
  simp only [Nat.add_mul_mod_self_right, Nat.mod_eq_of_lt hlt, Nat.mod_eq_of_lt hlt'] at hmod
  simp only [Nat.add_mul_div_right _ _ hpos, Nat.div_eq_of_lt hlt, Nat.div_eq_of_lt hlt',
    Nat.zero_add] at hdiv
  exact ⟨hdiv, by omega⟩

section Pixels

variable {s s' : BltState} {x y : ℕ} (h : m.Turned s s') (hx : x < m.horizontalResolution)
  (hy : y < m.verticalResolution)

include h hx hy

theorem GopMode.Turned.pixel : s'.frame (m.index90 x y % frameSpan) = s.frame (m.index x y % frameSpan) := by
  rw [(m.index90_mod hx hy).1, m.index_mod hx hy]
  exact h.frame x hx y hy

/-- A pixel set in both frames. -/
theorem GopMode.Turned.update (v : UInt32) : m.Rotated
    (Function.update s.frame (m.index x y % frameSpan) v)
    (Function.update s'.frame (m.index90 x y % frameSpan) v) := by
  intro x' hx' y' hy'
  rw [(m.index90_mod hx hy).1, m.index_mod hx hy]
  by_cases hxy : x' = x ∧ y' = y
  · obtain ⟨rfl, rfl⟩ := hxy
    rw [Function.update_self, Function.update_self]
  · rw [Function.update_of_ne (fun he => hxy ((m.turned_inj hy' hy).1 he)),
      Function.update_of_ne (fun he => hxy ((m.index_inj hx' hx).1 he))]
    exact h.frame x' hx' y' hy'

theorem GopMode.Turned.storePixel {v v' : UInt32} (hv : v = v') :
    m.Turned (s.storePixel (m.index x y) v) (s'.storePixel (m.index90 x y) v') := by
  subst hv
  exact ⟨h.update hx hy v, h.buffer⟩

theorem GopMode.Turned.pixelToBuffer {a a' : ℕ} (ha : a = a') :
    m.Turned (s.pixelToBuffer a (m.index x y)) (s'.pixelToBuffer a' (m.index90 x y)) := by
  subst ha
  refine ⟨h.frame, ?_⟩
  simp only [BltState.pixelToBuffer, BltState.setBufferPixel, h.buffer, h.pixel hx hy]

end Pixels

theorem GopMode.Turned.bufferPixel {s s' : BltState} (h : m.Turned s s') {a a' : ℕ} (ha : a = a') :
    s.bufferPixel a = s'.bufferPixel a' := by
  unfold BltState.bufferPixel
  rw [h.buffer, ha]

section Rows

variable {s s' : BltState}

theorem frame_movePixels_of_ne {d c : ℕ → ℕ} {n i : ℕ} (hi : ∀ k < n, i ≠ d k % frameSpan) :
    (countUp (fun k s => BltState.movePixel s (d k) (c k)) n s).frame i = s.frame i := by
  refine countUp_invariant (fun (_ : ℕ) (t : BltState) => t.frame i = s.frame i) rfl fun k hk t ht => ?_
  simp only [BltState.movePixel]
  rw [Function.update_of_ne (hi k hk)]
  exact ht

theorem buffer_movePixels {d c : ℕ → ℕ} {n : ℕ} :
    (countUp (fun k s => BltState.movePixel s (d k) (c k)) n s).buffer = s.buffer :=
  countUp_invariant (fun (_ : ℕ) (t : BltState) => t.buffer = s.buffer) rfl fun _ _ _ ht => ht

/-- Pixels moved one after the other, none of them read after it was written and none written
twice. -/
theorem frame_movePixels {d c : ℕ → ℕ} : ∀ {n : ℕ},
    (∀ k < n, ∀ j < k, c k % frameSpan ≠ d j % frameSpan) →
    (∀ k < n, ∀ j < k, d k % frameSpan ≠ d j % frameSpan) → ∀ k < n,
      (countUp (fun k s => BltState.movePixel s (d k) (c k)) n s).frame (d k % frameSpan)
        = s.frame (c k % frameSpan)
  | 0, _, _, k, hk => absurd hk (Nat.not_lt_zero k)
  | n + 1, hc, hd, k, hk => by
    simp only [countUp, BltState.movePixel]
    rcases Nat.lt_succ_iff_lt_or_eq.1 hk with hlt | rfl
    · rw [Function.update_of_ne (hd n (by omega) k hlt).symm]
      exact frame_movePixels (fun k hk => hc k (by omega)) (fun k hk => hd k (by omega)) k hlt
    · rw [Function.update_self]
      exact frame_movePixels_of_ne (hc k (by omega))

/-- A row moved in both frames, unless it moves to the right onto itself. -/
theorem GopMode.Turned.moveRow (h : m.Turned s s') {sx sy dx dy w : ℕ} (hw : 0 < w)
    (hsx : sx + w ≤ m.horizontalResolution) (hsy : sy < m.verticalResolution)
    (hdx : dx + w ≤ m.horizontalResolution) (hdy : dy < m.verticalResolution)
    (hsafe : ¬ (sy = dy ∧ sx < dx ∧ dx < sx + w)) :
    m.Turned (s.moveRow (m.index dx dy) (m.index sx sy) w)
      (countUp (fun k s => BltState.movePixel s (m.index90 (dx + k) dy) (m.index90 (sx + k) sy)) w
        s') := by
  have hmod : ∀ {x k y}, k < w → x + w ≤ m.horizontalResolution → y < m.verticalResolution →
      m.index90 (x + k) y % frameSpan = m.turned (x + k) y :=
    fun hk hx hy => (m.index90_mod (by omega) hy).1
  obtain ⟨hp₁, hp₂, hp₃⟩ := frame_moveRow (s := s) (m.index_add_le hw hdx hdy) hw
    (m.index_add_le hw hsx hsy)
  have ht₁ := frame_movePixels (s := s') (n := w)
    (d := fun k => m.index90 (dx + k) dy) (c := fun k => m.index90 (sx + k) sy)
    (fun k hk j hj he => by
      rw [hmod hk hsx hsy, hmod (by omega) hdx hdy, m.turned_inj hsy hdy] at he
      omega)
    (fun k hk j hj he => by
      rw [hmod hk hdx hdy, hmod (by omega) hdx hdy, m.turned_inj hdy hdy] at he
      omega)
  refine ⟨fun x hx y hy => ?_, by rw [hp₃, buffer_movePixels, h.buffer]⟩
  by_cases hin : y = dy ∧ dx ≤ x ∧ x < dx + w
  · obtain ⟨rfl, hle, hlt⟩ := hin
    obtain ⟨k, rfl⟩ := Nat.exists_eq_add_of_le hle
    have hk : k < w := by omega
    have hp := hp₁ k hk
    have ht := ht₁ k hk
    simp only [hmod hk hdx hdy, hmod hk hsx hsy] at ht
    rw [m.index_add, m.index_add] at hp
    rw [ht, hp]
    exact h.frame _ (by omega) _ hsy
  · have hp := hp₂ (m.index x y) fun k hk he => by
      rw [m.index_add, m.index_inj hx (by omega)] at he
      omega
    have ht := frame_movePixels_of_ne (s := s') (n := w) (i := m.turned x y)
      (d := fun k => m.index90 (dx + k) dy) (c := fun k => m.index90 (sx + k) sy)
      fun k hk he => by
        rw [hmod hk hdx hdy, m.turned_inj hy hdy] at he
        omega
    rw [hp, ht]
    exact h.frame x hx y hy

end Rows

variable (m) (op : BltOperation) (bltBuffer : Bool) (p : BltArgs)

/-- Both blitters stay in the frame, return the same, and leave the same picture and blt buffer. -/
structure GopMode.BltAgrees (s s' : BltState) : Prop where
  plain : ∀ i ∈ (lcdGraphicsBlt m op bltBuffer p s).2.touched,
    i < m.horizontalResolution * m.verticalResolution
  turned : ∀ i ∈ (lcdGraphicsBlt90 m op bltBuffer p s').2.touched,
    i < m.horizontalResolution * m.verticalResolution
  status : (lcdGraphicsBlt m op bltBuffer p s).1 = (lcdGraphicsBlt90 m op bltBuffer p s').1
  result : m.Turned (lcdGraphicsBlt m op bltBuffer p s).2 (lcdGraphicsBlt90 m op bltBuffer p s').2

/-- A copy within its rows, to the right and onto itself. -/
def BltArgs.Smears : Prop :=
  op = .videoToVideo ∧ p.sourceY = p.destinationY ∧ p.sourceX.toNat < p.destinationX.toNat
    ∧ p.destinationX.toNat < p.sourceX.toNat + p.width.toNat

theorem GopMode.inFrame_of_unwrapped {x y : UInt64} (h : p.Unwrapped x y)
    (hin : m.beyond p x y = false) : m.InFrame p x y := by
  simp only [GopMode.beyond, Bool.or_eq_false_iff, decide_eq_false_iff_not, not_lt] at hin
  rw [Nat.mod_eq_of_lt h.1, Nat.mod_eq_of_lt h.2] at hin
  exact ⟨hin.2, hin.1⟩

variable {m op bltBuffer p}

/-- The rectangles of an accepted blit whose sums do not wrap. -/
theorem GopMode.accepted_inFrame
    (h : lcdGraphicsBltCheckParameters m op bltBuffer p = efiSuccess) (hno : p.NoWrap op) :
    (op.readsVideo = true → m.InFrame p p.sourceX p.sourceY)
      ∧ (op.writesVideo = true → m.InFrame p p.destinationX p.destinationY) := by
  obtain ⟨-, -, hr, hw⟩ := (lcdGraphicsBltCheckParameters_success m op bltBuffer p).1 h
  exact ⟨fun ho => m.inFrame_of_unwrapped p (hno.source ho) (hr ho),
    fun ho => m.inFrame_of_unwrapped p (hno.destination ho) (hw ho)⟩

theorem pixels_of_inFrame {x y : UInt64} (h : m.InFrame p x y) :
    p.widthInBytes / 4 = p.width.toNat := by
  have hH := m.horizontal_lt
  have hr := h.right
  rw [widthInBytes_div_four]
  omega

/-- Where the rectangles are in the frame and the copy does not smear, a blit of the picture is the
blit of the turned picture. -/
theorem GopMode.Turned.blt {s s' : BltState} (hs : m.Turned s s')
    (h : lcdGraphicsBltCheckParameters m op bltBuffer p = efiSuccess) (hno : p.NoWrap op)
    (hsafe : ¬ p.Smears op) :
    (lcdGraphicsBlt m op bltBuffer p s).1 = (lcdGraphicsBlt90 m op bltBuffer p s').1
      ∧ m.Turned (lcdGraphicsBlt m op bltBuffer p s).2 (lcdGraphicsBlt90 m op bltBuffer p s').2 := by
  obtain ⟨hsrc, hdst⟩ := GopMode.accepted_inFrame h hno
  obtain ⟨⟨hw, -⟩, -, -, -⟩ := (lcdGraphicsBltCheckParameters_success m op bltBuffer p).1 h
  have hpos := p.width_pos hw
  unfold lcdGraphicsBlt lcdGraphicsBlt90
  simp only [h, efiError_success, Bool.false_eq_true, if_false, m.index_add]
  cases op with
  | videoFill =>
    have hd := hdst rfl
    rw [pixels_of_inFrame hd]
    refine ⟨rfl, countUp_rel hs fun y hy s s' hs => countUp_rel hs fun x hx s s' hs => ?_⟩
    have hr := hd.right
    have hb := hd.bottom
    exact hs.storePixel (by omega) (by omega) (hs.bufferPixel rfl)
  | videoToBltBuffer =>
    have hc := hsrc rfl
    rw [pixels_of_inFrame hc]
    refine ⟨rfl, countUp_rel hs fun y hy s s' hs => countUp_rel hs fun x hx s s' hs => ?_⟩
    have hr := hc.right
    have hb := hc.bottom
    exact hs.pixelToBuffer (by omega) (by omega) (by omega)
  | bufferToVideo =>
    have hd := hdst rfl
    rw [pixels_of_inFrame hd]
    refine ⟨rfl, countUp_rel hs fun y hy s s' hs => countUp_rel hs fun x hx s s' hs => ?_⟩
    have hr := hd.right
    have hb := hd.bottom
    exact hs.storePixel (by omega) (by omega) (hs.bufferPixel (by omega))
  | videoToVideo =>
    have hc := hsrc rfl
    have hd := hdst rfl
    rw [pixels_of_inFrame hd]
    have hrow : ∀ y < p.height.toNat, ∀ s s', m.Turned s s' → m.Turned
        (s.moveRow (m.index p.destinationX.toNat (p.destinationY.toNat + y))
          (m.index p.sourceX.toNat (p.sourceY.toNat + y)) p.width.toNat)
        (countUp (fun x s => BltState.movePixel s
          (m.index90 (p.destinationX.toNat + x) (p.destinationY.toNat + y))
          (m.index90 (p.sourceX.toNat + x) (p.sourceY.toNat + y))) p.width.toNat s') := by
      intro y hy s s' hs
      have hcb := hc.bottom
      have hdb := hd.bottom
      refine hs.moveRow hpos hc.right (by omega) hd.right (by omega) fun ⟨hy, hlt, hle⟩ => ?_
      exact hsafe ⟨rfl, UInt64.toNat_inj.1 (by omega), hlt, hle⟩
    refine ⟨rfl, ?_⟩
    simp only []
    split_ifs
    · exact countDown_rel hs hrow
    · exact countUp_rel hs hrow
  | other => exact ⟨rfl, hs⟩

section Smear

/-- One pixel set in an empty picture. -/
def GopMode.dot (m : GopMode) (x y : ℕ) : Cells UInt32 := fun i => if i = m.index x y then 1 else 0

def GopMode.turnedDot (m : GopMode) (x y : ℕ) : Cells UInt32 :=
  fun i => if i = m.turned x y then 1 else 0

theorem GopMode.rotated_dot {x y : ℕ} (hx : x < m.horizontalResolution)
    (hy : y < m.verticalResolution) : m.Rotated (m.dot x y) (m.turnedDot x y) := by
  intro x' hx' y' hy'
  unfold GopMode.dot GopMode.turnedDot
  exact if_congr ((m.turned_inj hy' hy).trans (m.index_inj hx' hx).symm) rfl rfl

/-- Copied pixel by pixel from the left, the first pixel of a row comes again where the copy of the
row starts to read what it has written. -/
theorem frame_smear {s : BltState} {x y d w : ℕ} (hd : 0 < d) (hdw : d < w)
    (hx : x + d + w ≤ m.horizontalResolution) (hy : y < m.verticalResolution) :
    (countUp (fun k s => BltState.movePixel s (m.index90 (x + d + k) y) (m.index90 (x + k) y)) w
      s).frame (m.turned (x + d + d) y) = s.frame (m.turned x y) := by
  have hmod : ∀ {x'}, x' < m.horizontalResolution →
      m.index90 x' y % frameSpan = m.turned x' y := fun hx' => (m.index90_mod hx' hy).1
  -- the copy of the first pixel is in place from the first pass on, its own copy from pass `d` on
  have hinv := countUp_invariant (s := s) (n := w)
    (f := fun k s => BltState.movePixel s (m.index90 (x + d + k) y) (m.index90 (x + k) y))
    (fun k t => (k = 0 → t = s) ∧ (0 < k → t.frame (m.turned (x + d) y) = s.frame (m.turned x y))
      ∧ (d < k → t.frame (m.turned (x + d + d) y) = s.frame (m.turned x y)))
    ⟨fun _ => rfl, fun hk => absurd hk (Nat.lt_irrefl 0), fun hk => absurd hk (Nat.not_lt_zero d)⟩
    fun k hk t ⟨h₀, h₁, h₂⟩ => by
      simp only [BltState.movePixel, hmod (show x + d + k < _ by omega),
        hmod (show x + k < _ by omega)]
      refine ⟨fun hno => by omega, fun _ => ?_, fun hdk => ?_⟩
      · rcases Nat.eq_zero_or_pos k with rfl | hpos
        · rw [h₀ rfl, Nat.add_zero, Nat.add_zero, Function.update_self]
        · rw [Function.update_of_ne fun he => ?_, h₁ hpos]
          rw [m.turned_inj hy hy] at he
          omega
      · rcases Nat.lt_succ_iff_lt_or_eq.1 hdk with hlt | rfl
        · rw [Function.update_of_ne fun he => ?_, h₂ hlt]
          rw [m.turned_inj hy hy] at he
          omega
        · rw [Function.update_self]
          exact h₁ hd
  exact hinv.2.2 hdw

-- of the rectangles of `h` rows only the first row has the two pixels

/-- The turned copy has the dot twice. -/
theorem turnedCopy_dot {x y d w : ℕ} (h : ℕ) (hpos : 0 < h) (hd : 0 < d) (hdw : d < w)
    (hx : x + d + w ≤ m.horizontalResolution) (hy : y + h ≤ m.verticalResolution) :
    (countUp (fun r => countUp (fun k s => BltState.movePixel s (m.index90 (x + d + k) (y + r))
        (m.index90 (x + k) (y + r))) w) h ⟨m.turnedDot x y, fun _ => 0, []⟩).frame
      (m.turned (x + d + d) y) = 1 := by
  refine countUp_of_first (P := fun s : BltState => s.frame (m.turned (x + d + d) y) = 1) hpos
    ((frame_smear hd hdw hx (by omega)).trans (if_pos rfl)) fun r hr hr₀ s hs => ?_
  refine (frame_movePixels_of_ne fun k hk he => ?_).trans hs
  rw [(m.index90_mod (by omega) (by omega)).1, m.turned_inj (by omega) (by omega)] at he
  omega

/-- The copy of whole rows has it once. -/
theorem plainCopy_dot {x y d w : ℕ} (h : ℕ) (hpos : 0 < h) (hd : 0 < d) (hdw : d < w)
    (hx : x + d + w ≤ m.horizontalResolution) (hy : y + h ≤ m.verticalResolution) :
    (countUp (fun r s => BltState.moveRow s (m.index (x + d) (y + r)) (m.index x (y + r)) w) h
      ⟨m.dot x y, fun _ => 0, []⟩).frame (m.index (x + d + d) y) = 0 := by
  refine countUp_of_first (P := fun s : BltState => s.frame (m.index (x + d + d) y) = 0) hpos ?_
    fun r hr hr₀ s hs => ?_
  · have hrow := (frame_moveRow (s := ⟨m.dot x y, fun _ => 0, []⟩)
      (m.index_add_le (by omega) hx (show y < _ by omega)) (by omega)
      (m.index_add_le (w := w) (by omega) (show x + w ≤ m.horizontalResolution by omega)
        (show y < _ by omega))).1 d hdw
    rw [m.index_add, m.index_add] at hrow
    refine hrow.trans (if_neg fun he => ?_)
    rw [m.index_inj (by omega) (by omega)] at he
    omega
  · refine ((frame_moveRow (m.index_add_le (by omega) hx (by omega)) (by omega)
      (m.index_add_le (by omega) (by omega) (by omega))).2.1 _ fun k hk he => ?_).trans hs
    rw [m.index_add, m.index_inj (by omega) (by omega)] at he
    omega

/-- A copy that smears leaves another picture than `CopyMem` does. -/
theorem BltArgs.Smears.not_agrees (h : p.Smears op)
    (hacc : lcdGraphicsBltCheckParameters m op bltBuffer p = efiSuccess) (hno : p.NoWrap op) :
    ¬ ∀ f g b, m.Rotated f g → m.BltAgrees op bltBuffer p ⟨f, b, []⟩ ⟨g, b, []⟩ := by
  obtain ⟨rfl, hy, hlt, hle⟩ := h
  intro hall
  obtain ⟨hsrc, hdst⟩ := GopMode.accepted_inFrame hacc hno
  obtain ⟨⟨-, hh⟩, -, -, -⟩ :=
    (lcdGraphicsBltCheckParameters_success m .videoToVideo bltBuffer p).1 hacc
  have hpos := p.height_pos hh
  have hright := (hdst rfl).right
  have hbottom := (hdst rfl).bottom
  obtain ⟨d, hd⟩ := Nat.exists_eq_add_of_le hlt.le
  rw [hd] at hright hle hlt
  have hV : p.sourceY.toNat < m.verticalResolution := by
    rw [hy]
    omega
  have hrot := (hall _ _ (fun _ => 0) (m.rotated_dot (show p.sourceX.toNat < _ by omega) hV)).result
    |>.frame (p.sourceX.toNat + d + d) (by omega) p.sourceY.toNat hV
  unfold lcdGraphicsBlt lcdGraphicsBlt90 at hrot
  have hirr : ¬ p.sourceY < p.sourceY := UInt64.lt_irrefl _
  simp only [hacc, efiError_success, Bool.false_eq_true, if_false, ← hy, hirr] at hrot
  rw [pixels_of_inFrame (hdst rfl), hd] at hrot
  rw [← hy] at hbottom
  have hturned := turnedCopy_dot p.height.toNat hpos (d := d) (by omega) (by omega) hright hbottom
  have hplain := plainCopy_dot p.height.toNat hpos (d := d) (by omega) (by omega) hright hbottom
  rw [hturned, hplain] at hrot
  exact absurd hrot (by decide)

end Smear

/-- A blit the check rejects does nothing. -/
theorem lcdGraphicsBlt_of_rejected
    (h : lcdGraphicsBltCheckParameters m op bltBuffer p ≠ efiSuccess) {s s' : BltState} :
    lcdGraphicsBlt m op bltBuffer p s = (lcdGraphicsBltCheckParameters m op bltBuffer p, s)
      ∧ lcdGraphicsBlt90 m op bltBuffer p s'
        = (lcdGraphicsBltCheckParameters m op bltBuffer p, s') := by
  have herr : efiError (lcdGraphicsBltCheckParameters m op bltBuffer p) = true := by
    unfold lcdGraphicsBltCheckParameters at h ⊢
    split_ifs at h ⊢
    all_goals first | exact efiError_encodeError 2 | exact absurd rfl h
  exact ⟨if_pos herr, if_pos herr⟩

/-- The turned blitter agrees with the plain one, on every picture and buffer, exactly if no sum the
check makes wraps and the copy does not smear. -/
theorem lcdGraphicsBlt90_agrees_iff :
    (∀ f g b, m.Rotated f g → m.BltAgrees op bltBuffer p ⟨f, b, []⟩ ⟨g, b, []⟩)
      ↔ (lcdGraphicsBltCheckParameters m op bltBuffer p = efiSuccess →
        p.NoWrap op ∧ ¬ p.Smears op) := by
  constructor
  · intro h hacc
    have hzero := h (fun _ => 0) (fun _ => 0) (fun _ => 0) fun _ _ _ _ => rfl
    have hno := (insideFrame_iff m op bltBuffer p hacc (fun _ => 0) fun _ => 0).1
      ⟨hzero.plain, hzero.turned⟩
    exact ⟨hno, fun hsmear => hsmear.not_agrees hacc hno h⟩
  · intro h f g b hrot
    have hs : m.Turned ⟨f, b, []⟩ ⟨g, b, []⟩ := ⟨hrot, rfl⟩
    by_cases hacc : lcdGraphicsBltCheckParameters m op bltBuffer p = efiSuccess
    · obtain ⟨hno, hsafe⟩ := h hacc
      obtain ⟨hstatus, hresult⟩ := hs.blt hacc hno hsafe
      exact ⟨((insideFrame_iff m op bltBuffer p hacc f b).2 hno).plain,
        ((insideFrame_iff m op bltBuffer p hacc g b).2 hno).turned, hstatus, hresult⟩
    · obtain ⟨hb, ht⟩ := lcdGraphicsBlt_of_rejected hacc
      refine ⟨fun i hi => ?_, fun i hi => ?_, ?_, ?_⟩
      · rw [hb] at hi
        exact absurd hi List.not_mem_nil
      · rw [ht] at hi
        exact absurd hi List.not_mem_nil
      · rw [hb, ht]
      · rw [hb, ht]
        exact hs

/-- Three pixels copied one to the right, within the row. -/
theorem lcdGraphicsBlt90_smears :
    ¬ ∀ m op bltBuffer p, lcdGraphicsBltCheckParameters m op bltBuffer p = efiSuccess →
      ∀ f g b, m.Rotated f g → m.BltAgrees op bltBuffer p ⟨f, b, []⟩ ⟨g, b, []⟩ := by
  intro h
  have hno : BltArgs.NoWrap .videoToVideo ⟨0, 0, 1, 0, 3, 1, 0⟩ :=
    ⟨fun _ => ⟨by decide, by decide⟩, fun _ => ⟨by decide, by decide⟩⟩
  have hsmear : BltArgs.Smears .videoToVideo ⟨0, 0, 1, 0, 3, 1, 0⟩ :=
    ⟨rfl, rfl, by decide, by decide⟩
  have hnot : ¬ ∀ f g b, vgaMode.Rotated f g → vgaMode.BltAgrees .videoToVideo false
      ⟨0, 0, 1, 0, 3, 1, 0⟩ ⟨f, b, []⟩ ⟨g, b, []⟩ := hsmear.not_agrees (by decide) hno
  exact hnot (h vgaMode .videoToVideo false ⟨0, 0, 1, 0, 3, 1, 0⟩ (by decide))

end Edk2Rk3576
