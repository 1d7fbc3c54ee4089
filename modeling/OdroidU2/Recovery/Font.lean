import Mathlib
import OdroidU2.Recovery.Drawing
import OdroidU2.Recovery.Start

/-!
# The Font of the Recovery

The glyphs of the font are one wide picture, compiled in as runs of equal pixels: the high bit of a
byte is the pixel, the other bits say how often, and a zero ends the data.  `gr_init_font` writes
the runs into a block of the size of the picture, one after the other and without counting.

- `decodeRuns_encodeRuns` — pictures that are cut into runs are read back
- `grText_shows` — a text on the surface, from the picture that was compiled in
-/

namespace OdroidU2.Recovery

open OdroidU2.Foundations Prog

/-! ## §1 Runs -/

/-- A pixel of a glyph in the texture. -/
def shade (pixel : Bool) : UInt8 := if pixel then 255 else 0

/-- One run. -/
def packRun (pixel : Bool) (n : ℕ) : UInt8 := (if pixel then 0x80 else 0) ||| UInt8.ofNat n

/-- The rest of a picture, after `n` pixels of a run. -/
def encodeFrom (pixel : Bool) (n : ℕ) : List Bool → List UInt8
  | [] => [packRun pixel n]
  | p :: pixels =>
    if p = pixel ∧ n < 127 then encodeFrom pixel (n + 1) pixels
    else packRun pixel n :: encodeFrom p 1 pixels

/-- A picture as runs, none of them longer than its seven bits can say. -/
def encodeRuns : List Bool → List UInt8
  | [] => []
  | p :: pixels => encodeFrom p 1 pixels

section Runs

/-- The parts of a run. -/
theorem packRun_parts (pixel : Bool) {n : ℕ} (hpos : 0 < n) (hn : n < 128) :
    packRun pixel n ≠ 0 ∧ (packRun pixel n &&& 0x7f).toNat = n ∧
      (packRun pixel n &&& 0x80 ≠ 0 ↔ pixel) := by
  have hall : ∀ pixel, ∀ n : Fin 128, 0 < n.val → packRun pixel n ≠ 0 ∧
      (packRun pixel n &&& 0x7f).toNat = n ∧ (packRun pixel n &&& 0x80 ≠ 0 ↔ pixel) := by
    decide
  exact hall pixel ⟨n, hn⟩ hpos

theorem decodeRuns_packRun (pixel : Bool) {n : ℕ} (hpos : 0 < n) (hn : n < 128)
    (rest : List UInt8) : decodeRuns (packRun pixel n :: rest) =
      (decodeRuns rest).map fun bits => List.replicate n (shade pixel) ++ bits := by
  obtain ⟨hne, hlen, hbit⟩ := packRun_parts pixel hpos hn
  rw [decodeRuns, if_neg hne, hlen]
  simp only [hbit]
  rfl

/-- The rest of a picture is read back, by induction on its pixels: each of them goes on with the
run, or starts the next one. -/
theorem decodeRuns_encodeFrom (pixels : List Bool) (rest : List UInt8) (pixel : Bool) {n : ℕ}
    (hpos : 0 < n) (hn : n < 128) : decodeRuns (encodeFrom pixel n pixels ++ 0 :: rest) =
      some (List.replicate n (shade pixel) ++ pixels.map shade) := by
  -- along the pixels; `n` counts the run read so far, which a byte can hold up to 127
  induction pixels generalizing pixel n with
  | nil =>
    rw [encodeFrom, List.singleton_append, decodeRuns_packRun pixel hpos hn]
    rfl
  | cons p pixels ih =>
    rw [encodeFrom]
    by_cases hsame : p = pixel ∧ n < 127
    · -- the run goes on
      obtain ⟨rfl, hlt⟩ := hsame
      rw [if_pos ⟨rfl, hlt⟩, ih p (Nat.succ_pos n) (by omega), List.replicate_succ',
        List.append_assoc, List.map_cons, List.singleton_append]
    · -- a new run starts, and the one before it is a byte of its own
      rw [if_neg hsame, List.cons_append, decodeRuns_packRun pixel hpos hn,
        ih p Nat.one_pos (by decide)]
      rfl

/-- **Round trip**: a picture that was cut into runs is read back, whatever follows its end. -/
theorem decodeRuns_encodeRuns (pixels : List Bool) (rest : List UInt8) :
    decodeRuns (encodeRuns pixels ++ 0 :: rest) = some (pixels.map shade) := by
  cases pixels with
  | nil => rfl
  | cons p pixels => exact decodeRuns_encodeFrom pixels rest p Nat.one_pos (by decide)

end Runs

/-! ## §2 A Text on the Surface -/

/-- The pixels of a picture, row by row. -/
def rowByRow (sheet : ℕ → ℕ → Bool) (width height : ℕ) : List Bool :=
  (List.range (width * height)).map fun k => sheet (k % width) (k / width)

/-- The data of a font are the runs of `sheet`, in which the glyphs stand side by side. -/
def Font.IsOf (font : Font) (sheet : ℕ → ℕ → Bool) : Prop :=
  ∃ rest,
    font.rundata = encodeRuns (rowByRow sheet font.width.toNat font.height.toNat) ++ 0 :: rest

section Sheet

variable {font : Font} {sheet : ℕ → ℕ → Bool}

/-- The font of a picture. -/
def Font.loaded (font : Font) (sheet : ℕ → ℕ → Bool) : GRFont :=
  font.load ((rowByRow sheet font.width.toNat font.height.toNat).map shade)

theorem exec_grInitFont (h : font.IsOf sheet) (s : Gr) :
    ((grInitFont font).exec s).font = some (font.loaded sheet) := by
  obtain ⟨rest, hrundata⟩ := h
  have hbits : (decodeRuns font.rundata).getD [] =
      (rowByRow sheet font.width.toNat font.height.toNat).map shade := by
    rw [hrundata, decodeRuns_encodeRuns, Option.getD_some]
  simp [grInitFont, malloc, hbits, Font.loaded]

/-- A texel of the font is a pixel of the picture. -/
theorem byteAt_loaded {u v : Int} (h : (font.loaded sheet).glyphs.Contains u v) :
    (font.loaded sheet).glyphs.byteAt u v = some (shade (sheet u.toNat v.toNat)) := by
  obtain ⟨hu, hu', hv, hv'⟩ : 0 ≤ u ∧ u < font.width.toNat ∧ 0 ≤ v ∧ v < font.height.toNat := h
  have hwidth : 0 < font.width.toNat := by omega
  have hcolumn : u.toNat < font.width.toNat := by omega
  -- row by row, `(u, v)` stands at `v * width + u`
  have hin : v.toNat * font.width.toNat + u.toNat < font.width.toNat * font.height.toNat := by
    have hrow : (v.toNat + 1) * font.width.toNat ≤ font.height.toNat * font.width.toNat :=
      Nat.mul_le_mul_right _ (by omega)
    rw [Nat.succ_mul] at hrow
    rw [Nat.mul_comm font.width.toNat]
    omega
  -- the place in the data gives the column and the row back
  have hmod : (v.toNat * font.width.toNat + u.toNat) % font.width.toNat = u.toNat := by
    rw [Nat.mul_comm, Nat.mul_add_mod, Nat.mod_eq_of_lt hcolumn]
  have hdiv : (v.toNat * font.width.toNat + u.toNat) / font.width.toNat = v.toNat := by
    rw [Nat.mul_comm, Nat.mul_add_div hwidth, Nat.div_eq_of_lt hcolumn, Nat.add_zero]
  show ((rowByRow sheet font.width.toNat font.height.toNat).map shade)[v.toNat *
    font.width.toNat + u.toNat]? = _
  rw [rowByRow, List.getElem?_map, List.getElem?_map, List.getElem?_range hin, Option.map_some,
    Option.map_some, hmod, hdiv]

variable {σ π : Type} {gl : GlLibrary σ π}

/-- A glyph over a pixel: the pixels of the picture that are set get the colour. -/
theorem texel_loaded (hgl : gl.Documented) {u v : Int}
    (h : (font.loaded sheet).glyphs.Contains u v) (color : GlColor) (p : π) :
    gl.texel (font.loaded sheet).glyphs u v color p =
      if sheet u.toNat v.toNat then gl.solid color else p := by
  have hbyte := byteAt_loaded h
  split
  · -- a stroke: the byte is 255
    next hset =>
    rw [hset] at hbyte
    exact hgl.covered _ u v color p rfl hbyte
  · -- beside the stroke: the byte is 0
    next hclear =>
    rw [Bool.not_eq_true] at hclear
    rw [hclear] at hbyte
    exact hgl.clear _ u v color p rfl hbyte

/-- **From the compiled-in runs to the surface**: `gr_init_font` fills its block exactly.  After it a
text that fits gets the colour at the pixels that the picture has for its characters, all other
pixels of the surface stay as they are, and `gr_text` returns the place that `gr_measure` gives. -/
theorem grText_shows (hgl : gl.Documented) (h : font.IsOf sheet) (g : Gr) :
    ((grInitFont font).exec g).font = some (font.loaded sheet) ∧
      (font.loaded sheet).texture.data.length = font.width.toNat * font.height.toNat ∧
      ∀ {x y : Int} {text : List UInt8}, TextFits (font.loaded sheet) x y text →
        (grText (font.loaded sheet) x y text).2 = int32 (x + grMeasure (font.loaded sheet) text) ∧
        ∀ (s : σ) (red green blue alpha : UInt8) {px py : Int}, gl.OnSurface px py →
          gl.pixel (gl.calls s (grInitCalls ++ (grColor red green blue alpha ++
              (grText (font.loaded sheet) x y text).1))) px py =
            if (glyphAt (font.loaded sheet) x (y - (font.loaded sheet).ascent.toNat) text px py).any
                fun uv => sheet uv.1.toNat uv.2.toNat then
              gl.solid ⟨257 * red.toNat + 1, 257 * green.toNat + 1, 257 * blue.toNat + 1,
                257 * alpha.toNat + 1⟩
            else gl.pixel s px py := by
  refine ⟨exec_grInitFont h g, ?_, fun {x y text} hfits => ⟨?_, ?_⟩⟩
  · show ((rowByRow sheet font.width.toNat font.height.toNat).map shade).length = _
    rw [List.length_map, rowByRow, List.length_map, List.length_range]
  · obtain ⟨hlow, hnonneg, hhigh⟩ := hfits.across
    exact grText_advances (int32_of_range (by omega) (by omega)) y text
  · intro s red green blue alpha px py hon
    -- the two functions as a run of drawing functions
    have hdraws : ∀ d ∈ [Draw.color red green blue alpha, .text x y text],
        d.Fits (font.loaded sheet) := by
      simp only [List.forall_mem_cons, List.not_mem_nil, false_implies, implies_true, and_true]
      exact ⟨trivial, hfits⟩
    have hpaint := draws_paint hgl s hdraws hon
    simp only [List.flatMap_cons, List.flatMap_nil, List.append_nil, List.foldl_cons,
      List.foldl_nil, Draw.calls, Painting.next] at hpaint
    rw [hpaint]
    -- a pixel outside every cell of the text is left alone
    cases hglyph : glyphAt (font.loaded sheet) x (y - (font.loaded sheet).ascent.toNat) text px
        py with
    | none => rfl
    | some uv =>
      have hcontains := hfits.contains (glyphAt_inside hfits.cell hglyph)
      rw [Option.elim_some, texel_loaded hgl hcontains, Option.any_some]

/-- A font of diagonal strokes, three pixels by four. -/
def strokes (u v : ℕ) : Bool := u % 3 = v

def smallStrokes : Font where
  width := 288
  height := 4
  cwidth := 3
  cheight := 4
  rundata := encodeRuns (rowByRow strokes 288 4) ++ [0]

/-- A pixel of the second character. -/
theorem grText_shows_small :
    (Canvas.library 40 30).pixel ((Canvas.library 40 30).calls Canvas.blank
      (grInitCalls ++ (grColor 255 0 0 255 ++
        (grText (smallStrokes.loaded strokes) 10 20 (bytes "OK")).1))) 14 19 = (31, 0, 0) := by
  have hof : smallStrokes.IsOf strokes := ⟨[], rfl⟩
  have hfits : TextFits (smallStrokes.loaded strokes) 10 20 (bytes "OK") :=
    { cell := by decide
      chars := by unfold Fits; decide
      across := by unfold Fits; decide
      down := by unfold Fits; decide
      wide := by decide
      high := by decide }
  have hon : (Canvas.library 40 30).OnSurface 14 19 := by
    unfold GlLibrary.OnSurface
    decide
  rw [((grText_shows (Canvas.documented 40 30) hof Gr.fresh).2.2 hfits).2 Canvas.blank 255 0 0 255
    hon]
  decide +kernel

end Sheet

end OdroidU2.Recovery
