import Mathlib
import OdroidU2.Foundations.CInt

/-!
# The Samples of `saveYUYVtoJPEG` and `convertYUYVtoRGB565`

Both functions take colours from a YUYV frame, where two pixels share their U and V.  The
one goes over the rows with a pointer and a toggle that carry over from row to row; the
other goes over the frame in blocks of four bytes.

- `savePixels_spec`, `saveRows_spec` — the loops of `saveYUYVtoJPEG`
- `convertBlocks_spec` — the loop of `convertYUYVtoRGB565`
- `same_samples` — both take the same samples for every pixel
-/

namespace OdroidU2.Camera

open OdroidU2.Foundations

/-! ## §1 Colours -/

/-- The samples a colour is made of. -/
structure Yuv where
  y : UInt8
  u : UInt8
  v : UInt8
  deriving DecidableEq, Repr

/-- The byte an `int` is cut down to. -/
def clamp (x : Int) : UInt8 := if x > 255 then 255 else if x < 0 then 0 else UInt8.ofNat x.toNat

/-- The formula of `saveYUYVtoJPEG`: red, green and blue. -/
def jpegRgb (s : Yuv) : UInt8 × UInt8 × UInt8 :=
  let y : Int := s.y.toNat <<< 8
  let u : Int := s.u.toNat - 128
  let v : Int := s.v.toNat - 128
  (clamp ((y + 359 * v) >>> 8), clamp ((y - 88 * u - 183 * v) >>> 8), clamp ((y + 454 * u) >>> 8))

/-- The arithmetic of `double`, over an arbitrary type. -/
structure Doubles (R : Type) where
  /-- A `double` literal of the source. -/
  lit : ℚ → R
  ofInt : Int → R
  add : R → R → R
  sub : R → R → R
  mul : R → R → R
  /-- Conversion to `int`: the fraction is dropped. -/
  trunc : R → Int

variable {R : Type}

/-- `yuv_to_rgb16`: the two bytes of a pixel. -/
def yuvToRgb16 (D : Doubles R) (s : Yuv) : UInt8 × UInt8 :=
  let luma := D.mul (D.lit 1.164) (D.ofInt (s.y.toNat - 16))
  let u := D.ofInt (s.u.toNat - 128)
  let v := D.ofInt (s.v.toNat - 128)
  let r := D.trunc (D.add luma (D.mul (D.lit 1.596) v))
  let g := D.trunc (D.sub (D.sub luma (D.mul (D.lit 0.813) v)) (D.mul (D.lit 0.391) u))
  let b := D.trunc (D.add luma (D.mul (D.lit 2.018) u))
  let rgb16 := (((clamp r).toNat >>> 3) <<< 11) ||| (((clamp g).toNat >>> 2) <<< 5) |||
    (((clamp b).toNat >>> 3) <<< 0)
  (UInt8.ofNat (rgb16 &&& 0xFF), UInt8.ofNat ((rgb16 &&& 0xFF00) >>> 8))

/-! ## §2 The Code -/

/-- A row as it is handed to `jpeg_write_scanlines`: what was stored in the line buffer for
it, and what the line buffer holds. -/
structure Scanline where
  stores : List (Nat × UInt8)
  line : List UInt8
  deriving DecidableEq, Repr

/-- The variables of `saveYUYVtoJPEG`; pointers count from the start of their buffers. -/
structure Saving where
  yuyv : Nat
  z : Nat
  ptr : Nat
  lineBuffer : List UInt8
  /-- Where the frame was read so far. -/
  loads : List Nat
  /-- What was stored in the line buffer in this row. -/
  stores : List (Nat × UInt8)
  scanlines : List Scanline
  deriving DecidableEq, Repr

/-- `*(ptr++) = value` -/
def Saving.put (s : Saving) (value : UInt8) : Saving :=
  { s with
    lineBuffer := s.lineBuffer.set s.ptr value
    stores := s.stores ++ [(s.ptr, value)]
    ptr := s.ptr + 1 }

/-- The body of the loop over a row. -/
def savePixel (inputBuffer : Nat → UInt8) (s : Saving) : Saving :=
  let y := if s.z = 0 then s.yuyv else s.yuyv + 2
  let rgb := jpegRgb ⟨inputBuffer y, inputBuffer (s.yuyv + 1), inputBuffer (s.yuyv + 3)⟩
  let s := { s with loads := s.loads ++ [y, s.yuyv + 1, s.yuyv + 3] }
  let s := ((s.put rgb.1).put rgb.2.1).put rgb.2.2
  -- `if (z++) { z = 0; yuyv += 4; }`
  if s.z ≠ 0 then { s with z := 0, yuyv := s.yuyv + 4 } else { s with z := s.z + 1 }

/-- The loop over a row, with `n` pixels to go. -/
def savePixels (inputBuffer : Nat → UInt8) : Nat → Saving → Saving
  | 0, s => s
  | n + 1, s => savePixels inputBuffer n (savePixel inputBuffer s)

/-- A row: the pointer into the line buffer starts anew, the other one does not. -/
def saveRow (inputBuffer : Nat → UInt8) (width : Nat) (s : Saving) : Saving :=
  let s := savePixels inputBuffer width { s with ptr := 0, stores := [] }
  { s with scanlines := s.scanlines ++ [⟨s.stores, s.lineBuffer⟩] }

/-- The loop over the rows, with `n` scanlines to go. -/
def saveRows (inputBuffer : Nat → UInt8) (width : Nat) : Nat → Saving → Saving
  | 0, s => s
  | n + 1, s => saveRows inputBuffer width n (saveRow inputBuffer width s)

/-- `saveYUYVtoJPEG`.  `starts` tells for which sizes `jpeg_start_compress` returns; for
others the compressor ends the process. -/
def saveYUYVtoJPEG (starts : Nat → Nat → Bool) (inputBuffer : Nat → UInt8) (width height : Nat) :
    Saving :=
  let s : Saving := ⟨0, 0, 0, List.replicate (width * 3) 0, [], [], []⟩
  if starts width height then saveRows inputBuffer width height s else s

/-- The variables of `convertYUYVtoRGB565`. -/
structure Converting where
  rgb : List UInt8
  loads : List Nat
  stores : List (Nat × UInt8)
  deriving DecidableEq, Repr

/-- The two bytes of a pixel go to `rgb`. -/
def Converting.put (s : Converting) (i : Nat) (pixel : UInt8 × UInt8) : Converting :=
  { s with
    rgb := (s.rgb.set i pixel.1).set (i + 1) pixel.2
    stores := s.stores ++ [(i, pixel.1), (i + 1, pixel.2)] }

/-- The loop over the blocks of four bytes. -/
def convertBlocks (D : Doubles R) (buf : Nat → UInt8) (blocks : Int) (y : Nat) (s : Converting) :
    Converting :=
  if (y : Int) < blocks then
    let y1 := buf y
    let u := buf (y + 1)
    let y2 := buf (y + 2)
    let v := buf (y + 3)
    let s := { s with loads := s.loads ++ [y, y + 1, y + 2, y + 3] }
    let s := s.put y (yuvToRgb16 D ⟨y1, u, v⟩)
    let s := s.put (y + 2) (yuvToRgb16 D ⟨y2, u, v⟩)
    convertBlocks D buf blocks (y + 4) s
  else s
termination_by (blocks - y).toNat

/-- `convertYUYVtoRGB565` -/
def convertYUYVtoRGB565 (D : Doubles R) (buf : Nat → UInt8) (rgb : List UInt8)
    (width height : Nat) : Converting :=
  convertBlocks D buf (int32 (int32 (width * height) * 2)) 0 ⟨rgb, [], []⟩

/-! ## §3 The Samples of a Pixel -/

/-- The samples of pixel `k`. -/
def samples (b : Nat → UInt8) (k : Nat) : Yuv :=
  ⟨b (2 * k), b (4 * (k / 2) + 1), b (4 * (k / 2) + 3)⟩

/-- Where the samples of pixel `k` are. -/
def sampleLoads (k : Nat) : List Nat := [2 * k, 4 * (k / 2) + 1, 4 * (k / 2) + 3]

/-- The bytes `3 * x` to `3 * x + 2` of a line. -/
def lineStores (x : Nat) (rgb : UInt8 × UInt8 × UInt8) : List (Nat × UInt8) :=
  [(3 * x, rgb.1), (3 * x + 1, rgb.2.1), (3 * x + 2, rgb.2.2)]

/-- The bytes `2 * k` and `2 * k + 1` of an RGB565 picture. -/
def pixelStores (k : Nat) (pixel : UInt8 × UInt8) : List (Nat × UInt8) :=
  [(2 * k, pixel.1), (2 * k + 1, pixel.2)]

/-! ## §4 Rows -/

/-- Three bytes are written after what is written. -/
theorem set_three {done rest : List UInt8} {x : Nat} (hdone : done.length = 3 * x)
    (hrest : 3 ≤ rest.length) (r g b : UInt8) :
    (((done ++ rest).set (3 * x) r).set (3 * x + 1) g).set (3 * x + 2) b =
      (done ++ [r, g, b]) ++ rest.drop 3 := by
  obtain ⟨a₀, a₁, a₂, rest, rfl⟩ : ∃ a₀ a₁ a₂ rest', rest = a₀ :: a₁ :: a₂ :: rest' := by
    match rest, hrest with
    | a₀ :: a₁ :: a₂ :: rest', _ => exact ⟨a₀, a₁, a₂, rest', rfl⟩
  rw [← hdone]
  simp

section

variable {b : Nat → UInt8}

/-- One pixel, at any place of the frame. -/
theorem savePixel_spec {s : Saving} {k x : Nat} (hz : s.z = k % 2) (hyuyv : s.yuyv = 4 * (k / 2))
    (hptr : s.ptr = 3 * x) :
    savePixel b s = ⟨4 * ((k + 1) / 2), (k + 1) % 2, 3 * (x + 1),
      ((s.lineBuffer.set (3 * x) (jpegRgb (samples b k)).1).set (3 * x + 1)
        (jpegRgb (samples b k)).2.1).set (3 * x + 2) (jpegRgb (samples b k)).2.2,
      s.loads ++ sampleLoads k, s.stores ++ lineStores x (jpegRgb (samples b k)),
      s.scanlines⟩ := by
  obtain ⟨yuyv, z, ptr, lineBuffer, loads, stores, scanlines⟩ := s
  simp only at hz hyuyv hptr
  subst hyuyv hptr
  -- the toggle tells which of the two Y bytes of the macropixel is meant
  rcases Nat.mod_two_eq_zero_or_one k with heven | hodd
  · have hy : 4 * (k / 2) = 2 * k := by omega
    have hdiv : (k + 1) / 2 = k / 2 := by omega
    have hmod : (k + 1) % 2 = 1 := by omega
    simp [savePixel, Saving.put, hz, heven, hy, hdiv, hmod, samples, sampleLoads, lineStores,
      Nat.mul_succ]
  · have hy : 4 * (k / 2) + 2 = 2 * k := by omega
    have hdiv : 4 * ((k + 1) / 2) = 4 * (k / 2) + 4 := by omega
    have hmod : (k + 1) % 2 = 0 := by omega
    simp [savePixel, Saving.put, hz, hodd, hy, hdiv, hmod, samples, sampleLoads, lineStores,
      Nat.mul_succ]

/-- What pixel `x` of the row that begins with pixel `base` adds to a line. -/
def lineBytes (b : Nat → UInt8) (base x : Nat) : List UInt8 :=
  let rgb := jpegRgb (samples b (base + x))
  [rgb.1, rgb.2.1, rgb.2.2]

theorem length_flatMap_lineBytes (base x n : Nat) :
    ((List.range' x n).flatMap (lineBytes b base)).length = 3 * n := by
  induction n generalizing x with
  | zero => rfl
  | succ n ih =>
    rw [List.range'_succ, List.flatMap_cons, List.length_append, ih]
    show 3 + 3 * n = _
    omega

/-- Some pixels of a row. -/
theorem savePixels_spec (base : Nat) {n x : Nat} {s : Saving} (done : List UInt8)
    {rest : List UInt8}
    (hz : s.z = (base + x) % 2) (hyuyv : s.yuyv = 4 * ((base + x) / 2)) (hptr : s.ptr = 3 * x)
    (hline : s.lineBuffer = done ++ rest) (hdone : done.length = 3 * x)
    (hrest : 3 * n ≤ rest.length) :
    savePixels b n s = ⟨4 * ((base + x + n) / 2), (base + x + n) % 2, 3 * (x + n),
      done ++ (List.range' x n).flatMap (lineBytes b base) ++ rest.drop (3 * n),
      s.loads ++ (List.range' (base + x) n).flatMap sampleLoads,
      s.stores ++ (List.range' x n).flatMap fun x => lineStores x (jpegRgb (samples b (base + x))),
      s.scanlines⟩ := by
  -- pixel by pixel, with `z` as the parity of the pixel and `yuyv` at its block
  induction n generalizing x s done rest with
  | zero =>
    obtain ⟨yuyv, z, ptr, lineBuffer, loads, stores, scanlines⟩ := s
    simp only at hz hyuyv hptr hline
    subst hz hyuyv hptr hline
    simp [savePixels]
  | succ n ih =>
    -- one pixel, and then the rest of the row from where it leaves off
    have hpixel := savePixel_spec (b := b) hz hyuyv hptr
    rw [hline, set_three hdone (by omega)] at hpixel
    rw [savePixels, hpixel]
    have hlength : (done ++ [(jpegRgb (samples b (base + x))).1,
        (jpegRgb (samples b (base + x))).2.1,
        (jpegRgb (samples b (base + x))).2.2]).length = 3 * (x + 1) := by
      rw [List.length_append, hdone]
      rfl
    rw [ih (x := x + 1) _ rfl rfl rfl rfl hlength (by rw [List.length_drop]; omega)]
    have hpixels : base + x + (n + 1) = base + (x + 1) + n := by omega
    have hdrop : 3 * (n + 1) = 3 + 3 * n := by omega
    simp only [List.range'_succ, List.flatMap_cons, List.append_assoc, List.drop_drop, hpixels,
      hdrop, lineBytes, Saving.mk.injEq, true_and]
    exact ⟨congrArg _ (by omega), rfl, trivial⟩

/-- A row as it is to be. -/
def scanline (b : Nat → UInt8) (width row : Nat) : Scanline where
  stores := (List.range width).flatMap fun x =>
    lineStores x (jpegRgb (samples b (row * width + x)))
  line := (List.range width).flatMap (lineBytes b (row * width))

/-- One row. -/
theorem saveRow_spec (width row : Nat) {s : Saving} (hz : s.z = row * width % 2)
    (hyuyv : s.yuyv = 4 * (row * width / 2)) (hline : s.lineBuffer.length = 3 * width) :
    (saveRow b width s).z = (row + 1) * width % 2 ∧
      (saveRow b width s).yuyv = 4 * ((row + 1) * width / 2) ∧
      (saveRow b width s).lineBuffer.length = 3 * width ∧
      (saveRow b width s).loads =
        s.loads ++ (List.range' (row * width) width).flatMap sampleLoads ∧
      (saveRow b width s).scanlines = s.scanlines ++ [scanline b width row] := by
  -- a row is `width` pixels; with an odd width the next one starts inside a block
  have hpixels := savePixels_spec (b := b) (row * width) (n := width) (x := 0)
    (s := { s with ptr := 0, stores := [] }) [] hz hyuyv rfl rfl rfl hline.ge
  rw [List.drop_of_length_le hline.le, List.append_nil, List.nil_append, List.nil_append] at hpixels
  rw [saveRow, hpixels, Nat.succ_mul row]
  refine ⟨rfl, rfl, length_flatMap_lineBytes .., rfl, ?_⟩
  rw [scanline, List.range_eq_range']

/-- Some rows: the pointer into the frame goes on from row to row. -/
theorem saveRows_spec (width : Nat) {n : Nat} (row : Nat) {s : Saving} (hz : s.z = row * width % 2)
    (hyuyv : s.yuyv = 4 * (row * width / 2)) (hline : s.lineBuffer.length = 3 * width) :
    (saveRows b width n s).loads =
        s.loads ++ (List.range' (row * width) (n * width)).flatMap sampleLoads ∧
      (saveRows b width n s).scanlines =
        s.scanlines ++ (List.range' row n).map (scanline b width) := by
  -- row by row; each leaves `z` and `yuyv` where the next one goes on
  induction n generalizing row s with
  | zero => simp [saveRows]
  | succ n ih =>
    obtain ⟨hz', hyuyv', hline', hloads, hscanlines⟩ :=
      saveRow_spec (b := b) width row hz hyuyv hline
    obtain ⟨hrest, hrows⟩ := ih (row + 1) hz' hyuyv' hline'
    have hrange : List.range' (row * width) ((n + 1) * width) =
        List.range' (row * width) width ++ List.range' ((row + 1) * width) (n * width) := by
      rw [Nat.succ_mul n, Nat.add_comm, Nat.succ_mul row, List.range'_append_1]
    rw [saveRows, hrest, hrows, hloads, hscanlines, hrange]
    simp [List.range'_succ]

end

/-! ## §5 Blocks -/

section

variable (D : Doubles R) (buf : Nat → UInt8)

/-- The bytes of pixel `k` in an RGB565 picture. -/
def pixelBytes (k : Nat) : List UInt8 :=
  [(yuvToRgb16 D (samples buf k)).1, (yuvToRgb16 D (samples buf k)).2]

/-- Two bytes are written after what is written. -/
theorem set_two {done : List UInt8} (rest : List UInt8) {i : Nat} (hdone : done.length = i)
    (hrest : 2 ≤ rest.length) (low high : UInt8) :
    ((done ++ rest).set i low).set (i + 1) high = (done ++ [low, high]) ++ rest.drop 2 := by
  obtain ⟨a₀, a₁, rest, rfl⟩ : ∃ a₀ a₁ rest', rest = a₀ :: a₁ :: rest' := by
    match rest, hrest with
    | a₀ :: a₁ :: rest', _ => exact ⟨a₀, a₁, rest', rfl⟩
  rw [← hdone]
  simp

/-- The loads of a block. -/
def blockLoads (m : Nat) : List Nat := [4 * m, 4 * m + 1, 4 * m + 2, 4 * m + 3]

/-- Some blocks: `n` of them, from block `m` on. -/
theorem convertBlocks_spec {blocks : Int} {n m : Nat} (s : Converting) (done rest : List UInt8)
    (hblocks : blocks = 4 * (m + n : Nat)) (hrgb : s.rgb = done ++ rest)
    (hdone : done.length = 4 * m) (hrest : 4 * n ≤ rest.length) :
    convertBlocks D buf blocks (4 * m) s =
      ⟨done ++ (List.range' (2 * m) (2 * n)).flatMap (pixelBytes D buf) ++ rest.drop (4 * n),
        s.loads ++ (List.range' m n).flatMap blockLoads,
        s.stores ++ (List.range' (2 * m) (2 * n)).flatMap fun k =>
          pixelStores k (yuvToRgb16 D (samples buf k))⟩ := by
  -- block by block: two pixels that share their chroma
  induction n generalizing m s done rest with
  | zero =>
    rw [convertBlocks, if_neg (by omega)]
    obtain ⟨rgb, loads, stores⟩ := s
    simp only at hrgb
    simp [hrgb]
  | succ n ih =>
    -- the two pixels of the block
    have hfirst : samples buf (2 * m) = ⟨buf (4 * m), buf (4 * m + 1), buf (4 * m + 3)⟩ := by
      have hhalf : 2 * m / 2 = m := by omega
      rw [samples, hhalf, ← Nat.mul_assoc]
    have hsecond : samples buf (2 * m + 1) =
        ⟨buf (4 * m + 2), buf (4 * m + 1), buf (4 * m + 3)⟩ := by
      have hhalf : (2 * m + 1) / 2 = m := by omega
      rw [samples, hhalf, Nat.mul_succ, ← Nat.mul_assoc]
    have hrgb₁ := set_two rest hdone (by omega)
      (yuvToRgb16 D (samples buf (2 * m))).1 (yuvToRgb16 D (samples buf (2 * m))).2
    have hlength : (done ++ pixelBytes D buf (2 * m)).length = 4 * m + 2 := by
      rw [List.length_append, hdone]
      rfl
    have hrgb₂ := set_two (rest.drop 2) hlength (by rw [List.length_drop]; omega)
      (yuvToRgb16 D (samples buf (2 * m + 1))).1 (yuvToRgb16 D (samples buf (2 * m + 1))).2
    have hrest' := ih (m := m + 1)
      ((({ s with loads := s.loads ++ blockLoads m }).put (4 * m)
        (yuvToRgb16 D (samples buf (2 * m)))).put (4 * m + 2)
          (yuvToRgb16 D (samples buf (2 * m + 1))))
      ((done ++ pixelBytes D buf (2 * m)) ++ pixelBytes D buf (2 * m + 1))
      ((rest.drop 2).drop 2) (by rw [hblocks]; omega)
      (by
        show (((s.rgb.set _ _).set _ _).set _ _).set _ _ = _
        rw [hrgb, hrgb₁]
        exact hrgb₂)
      (by rw [List.length_append, hlength]; rfl)
      (by rw [List.length_drop, List.length_drop]; omega)
    rw [convertBlocks, if_pos (by omega)]
    simp only [← hfirst, ← hsecond]
    apply hrest'.trans
    have hpixels : 2 * (n + 1) = 2 * n + 1 + 1 := by omega
    have hfrom : 2 * (m + 1) = 2 * m + 1 + 1 := by omega
    have hodd : 2 * (2 * m + 1) = 4 * m + 2 := by omega
    have hdrop : 2 + 2 + 4 * n = 4 * (n + 1) := by omega
    simp only [hpixels, hfrom, List.range'_succ, List.flatMap_cons, Converting.put,
      List.append_assoc, pixelStores, ← Nat.mul_assoc, hodd, List.drop_drop, hdrop]

end

/-! ## §6 Both Pictures -/

/-- A frame; `width * height` is even, and there is room for an RGB565 picture beside it in
the address space. -/
structure YuyvFrame where
  width : Nat
  height : Nat
  bytes : List UInt8
  even : 2 ∣ width * height
  length_eq : bytes.length = 2 * (width * height)
  fits : bytes.length + 2 * (width * height) < 2 ^ 32

namespace YuyvFrame

/-- The byte at an offset. -/
def byteAt (f : YuyvFrame) (i : Nat) : UInt8 := f.bytes.getD i 0

theorem lt_of_mem_sampleLoads (f : YuyvFrame) {k o : Nat} (hk : k < f.width * f.height)
    (ho : o ∈ sampleLoads k) : o < f.bytes.length := by
  obtain ⟨m, hm⟩ := f.even
  have hlength := f.length_eq
  simp only [sampleLoads, List.mem_cons, List.not_mem_nil, or_false] at ho
  omega

theorem lt_of_mem_blockLoads (f : YuyvFrame) {m o : Nat} (hm : m < f.width * f.height / 2)
    (ho : o ∈ blockLoads m) : o < f.bytes.length := by
  have hlength := f.length_eq
  simp only [blockLoads, List.mem_cons, List.not_mem_nil, or_false] at ho
  omega

/-- All rows. -/
theorem saveYUYVtoJPEG_spec (f : YuyvFrame) (starts : Nat → Nat → Bool) :
    (saveYUYVtoJPEG starts f.byteAt f.width f.height).scanlines =
        (if starts f.width f.height then
          (List.range f.height).map (scanline f.byteAt f.width) else []) ∧
      (saveYUYVtoJPEG starts f.byteAt f.width f.height).loads =
        (if starts f.width f.height then
          (List.range (f.width * f.height)).flatMap sampleLoads else []) := by
  unfold saveYUYVtoJPEG
  dsimp only
  -- the compressor starts, or ends before the first row
  split
  · obtain ⟨hloads, hscanlines⟩ := saveRows_spec (b := f.byteAt) f.width (n := f.height) 0
      (s := ⟨0, 0, 0, List.replicate (f.width * 3) 0, [], [], []⟩)
      (by rw [Nat.zero_mul]) (by rw [Nat.zero_mul]) (by rw [List.length_replicate, Nat.mul_comm])
    rw [hloads, hscanlines, Nat.zero_mul, Nat.mul_comm f.height, List.range_eq_range',
      List.range_eq_range']
    exact ⟨rfl, rfl⟩
  · exact ⟨rfl, rfl⟩

/-- All blocks: the number of bytes is not too large for an `int`.  What the buffer holds behind
the picture stays. -/
theorem convertYUYVtoRGB565_spec (f : YuyvFrame) (D : Doubles R) {rgb : List UInt8}
    (hrgb : 2 * (f.width * f.height) ≤ rgb.length) :
    convertYUYVtoRGB565 D f.byteAt rgb f.width f.height =
      ⟨(List.range (f.width * f.height)).flatMap (pixelBytes D f.byteAt) ++
          rgb.drop (2 * (f.width * f.height)),
        (List.range (f.width * f.height / 2)).flatMap blockLoads,
        (List.range (f.width * f.height)).flatMap fun k =>
          pixelStores k (yuvToRgb16 D (samples f.byteAt k))⟩ := by
  have hlength := f.length_eq
  have hfits := f.fits
  obtain ⟨m, hm⟩ := f.even
  -- the sizes are small enough for `int`
  have harea : int32 ((f.width : Int) * f.height) = (f.width * f.height : Nat) := by
    rw [← Int.natCast_mul]
    exact int32_of_range (by omega) (by omega)
  have hblocks : int32 (int32 ((f.width : Int) * f.height) * 2) = 4 * ((0 : Nat) + m : Nat) := by
    rw [harea, int32_of_range (by omega) (by omega)]
    omega
  have hspec := convertBlocks_spec D f.byteAt ⟨rgb, [], []⟩ [] rgb hblocks rfl rfl
    (by omega)
  have hbytes : 2 * (2 * m) = 4 * m := by omega
  rw [convertYUYVtoRGB565, List.range_eq_range', List.range_eq_range', hm,
    Nat.mul_div_cancel_left _ Nat.two_pos, hbytes]
  exact hspec

/-- Both functions take the same samples for every pixel, and only bytes of the frame.  The
one gives every row of the compressor three bytes for each pixel, the other writes the two
bytes of each pixel. -/
theorem same_samples (f : YuyvFrame) (D : Doubles R) (starts : Nat → Nat → Bool)
    (rgb : Vector UInt8 (2 * (f.width * f.height))) :
    let jpeg := saveYUYVtoJPEG starts f.byteAt f.width f.height
    let rgb565 := convertYUYVtoRGB565 D f.byteAt rgb.toList f.width f.height
    jpeg.scanlines = (if starts f.width f.height then
        (List.range f.height).map (scanline f.byteAt f.width) else []) ∧
      jpeg.loads = (if starts f.width f.height then
        (List.range (f.width * f.height)).flatMap sampleLoads else []) ∧
      rgb565.rgb = (List.range (f.width * f.height)).flatMap (pixelBytes D f.byteAt) ∧
      rgb565.stores = ((List.range (f.width * f.height)).flatMap fun k =>
        pixelStores k (yuvToRgb16 D (samples f.byteAt k))) ∧
      rgb565.loads = (List.range (f.width * f.height / 2)).flatMap blockLoads ∧
      ∀ o, o ∈ jpeg.loads ∨ o ∈ rgb565.loads → o < f.bytes.length := by
  obtain ⟨hscanlines, hloads⟩ := f.saveYUYVtoJPEG_spec starts
  have hconvert := f.convertYUYVtoRGB565_spec D rgb.length_toList.ge
  rw [List.drop_of_length_le rgb.length_toList.le, List.append_nil] at hconvert
  refine ⟨hscanlines, hloads, by rw [hconvert], by rw [hconvert], by rw [hconvert], ?_⟩
  intro o ho
  rw [hloads, hconvert] at ho
  -- the loads of each path, pixel by pixel and block by block
  rcases ho with ho | ho
  · split at ho
    · obtain ⟨k, hk, ho⟩ := List.mem_flatMap.mp ho
      exact f.lt_of_mem_sampleLoads (List.mem_range.mp hk) ho
    · cases ho
  · obtain ⟨m, hm, ho⟩ := List.mem_flatMap.mp ho
    exact f.lt_of_mem_blockLoads (List.mem_range.mp hm) ho

/-- Exact arithmetic. -/
def exactDoubles : Doubles ℚ where
  lit := id
  ofInt n := n
  add := (· + ·)
  sub := (· - ·)
  mul := (· * ·)
  trunc x := if 0 ≤ x then ⌊x⌋ else ⌈x⌉

/-- Two rows of three pixels. -/
def oddRows : YuyvFrame where
  width := 3
  height := 2
  bytes := [10, 20, 30, 40, 50, 60, 70, 80, 90, 100, 110, 120]
  even := by decide
  length_eq := rfl
  fits := by decide

/-- The last pixel of the first row and the first of the second have one macropixel. -/
theorem oddRows_samples :
    (saveYUYVtoJPEG (fun _ _ => true) oddRows.byteAt 3 2).loads =
        [0, 1, 3, 2, 1, 3, 4, 5, 7, 6, 5, 7, 8, 9, 11, 10, 9, 11] ∧
      (convertYUYVtoRGB565 exactDoubles oddRows.byteAt (List.replicate 12 0) 3 2).loads =
        [0, 1, 2, 3, 4, 5, 6, 7, 8, 9, 10, 11] := by
  obtain ⟨-, hloads, -, -, hblocks, -⟩ :=
    same_samples oddRows exactDoubles (fun _ _ => true) (Vector.replicate 12 0)
  exact ⟨hloads, hblocks⟩

end YuyvFrame

end OdroidU2.Camera
