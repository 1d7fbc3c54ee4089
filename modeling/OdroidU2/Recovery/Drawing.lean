import Mathlib
import OdroidU2.Foundations.CInt
import OdroidU2.Recovery.Graphics

/-!
# Drawing of the Recovery

The drawing functions of `recovery/graphics.c` are sequences of calls of the graphics library, which
keeps the modes that the calls set: a colour, a texture and whether it is used, and the coordinates
that move it over the surface.  Every function sets the modes it needs, so that none depends on what
another one has left.

The library is not part of this repository.  It is a parameter here: what it keeps, what its calls
do to that, and the documented behaviour that the results rest on.

- `GlLibrary`, `GlLibrary.Documented` — the library, and what is known of it
- `Painting.next` — what the functions are to paint, told without modes
- `textLoop_paints` — a text, character by character
- `draws_paint` — every run of the functions paints just that
- `grText_advances` — where the next text goes on
-/

namespace OdroidU2.Recovery

open OdroidU2.Foundations

/-! ## §1 The Graphics Library -/

/-- A colour of the library, in 16.16 fixed point. -/
structure GlColor where
  r : Int
  g : Int
  b : Int
  a : Int
  deriving DecidableEq, Repr

/-- The format of a texture. -/
inductive TextureFormat where
  /-- `GGL_PIXEL_FORMAT_A_8`: a texel is an alpha value. -/
  | a8
  | color (format : PixelFormat)
  deriving DecidableEq, Repr

/-- What can be bound as texture: a `GGLSurface`, which is also what a `gr_surface` points to. -/
structure Texture where
  surface : GGLSurface (List UInt8)
  format : TextureFormat

/-- The place is in the texture. -/
def Texture.Contains (texture : Texture) (u v : Int) : Prop :=
  0 ≤ u ∧ u < texture.surface.width.toNat ∧ 0 ≤ v ∧ v < texture.surface.height.toNat

/-- The byte of a texture of bytes at a place. -/
def Texture.byteAt (texture : Texture) (u v : Int) : Option UInt8 :=
  texture.surface.data[v.toNat * texture.surface.stride.toNat + u.toNat]?

/-- The calls of the library, with the constants that the code passes. -/
inductive GlCall where
  /-- `colorBuffer`, of `gr_mem_surface` -/
  | colorBuffer
  /-- `activeTexture`, of the unit 0 -/
  | activeTexture
  /-- `enable` of `GGL_BLEND` -/
  | enableBlend
  /-- `blendFunc` with `GGL_SRC_ALPHA` and `GGL_ONE_MINUS_SRC_ALPHA` -/
  | blendFunc
  | color4xv (color : GlColor)
  | bindTexture (texture : Texture)
  /-- `texEnvi` with `GGL_REPLACE` -/
  | texEnvReplace
  /-- `texGeni` of `GGL_S` with `GGL_ONE_TO_ONE` -/
  | texGenS
  /-- `texGeni` of `GGL_T` with `GGL_ONE_TO_ONE` -/
  | texGenT
  | enableTexture
  | disableTexture
  | texCoord2i (s t : Int)
  | recti (left top right bottom : Int)

/-- The call stores pixels. -/
def GlCall.draws : GlCall → Bool
  | .recti .. => true
  | _ => false

/-- The modes of the library. -/
structure Modes where
  colorBuffer : Bool
  unit0 : Bool
  blend : Bool
  blendAlpha : Bool
  color : GlColor
  texture : Option Texture
  replace : Bool
  oneToOneS : Bool
  oneToOneT : Bool
  textured : Bool
  texCoord : Int × Int

/-- What a call sets. -/
def Modes.set (m : Modes) : GlCall → Modes
  | .colorBuffer => { m with colorBuffer := true }
  | .activeTexture => { m with unit0 := true }
  | .enableBlend => { m with blend := true }
  | .blendFunc => { m with blendAlpha := true }
  | .color4xv color => { m with color := color }
  | .bindTexture texture => { m with texture := some texture }
  | .texEnvReplace => { m with replace := true }
  | .texGenS => { m with oneToOneS := true }
  | .texGenT => { m with oneToOneT := true }
  | .enableTexture => { m with textured := true }
  | .disableTexture => { m with textured := false }
  | .texCoord2i s t => { m with texCoord := (s, t) }
  | .recti .. => m

/-- Rectangles go to the surface, and are blended with it by their alpha. -/
structure Modes.Blends (m : Modes) : Prop where
  colorBuffer : m.colorBuffer = true
  unit0 : m.unit0 = true
  blend : m.blend = true
  blendAlpha : m.blendAlpha = true

/-- Rectangles are filled from the texture, one texel a pixel. -/
structure Modes.Uses (m : Modes) (texture : Texture) : Prop where
  bound : m.texture = some texture
  replace : m.replace = true
  oneToOneS : m.oneToOneS = true
  oneToOneT : m.oneToOneT = true
  textured : m.textured = true

/-- The graphics library, over its states and the pixels of the surface. -/
structure GlLibrary (σ π : Type) where
  call : σ → GlCall → σ
  modes : σ → Modes
  /-- The pixels of `gr_mem_surface`. -/
  pixel : σ → Int → Int → π
  /-- Its size. -/
  width : ℕ
  height : ℕ
  /-- A colour over a pixel, by the colour's own alpha. -/
  tint : GlColor → π → π
  /-- A colour whatever its alpha. -/
  solid : GlColor → π
  /-- A texel over a pixel, under a colour. -/
  texel : Texture → Int → Int → GlColor → π → π

/-- The pixel is in the rectangle. -/
def Inside (left top right bottom px py : Int) : Prop :=
  left ≤ px ∧ px < right ∧ top ≤ py ∧ py < bottom

instance (left top right bottom px py : Int) : Decidable (Inside left top right bottom px py) := by
  unfold Inside
  infer_instance

namespace GlLibrary

variable {σ π : Type}

/-- The pixel is one of the surface. -/
def OnSurface (gl : GlLibrary σ π) (px py : Int) : Prop := Inside 0 0 gl.width gl.height px py

/-- **What is documented of the library.**  A call sets its mode, and only `recti` draws: a
rectangle of the colour, or of the texture where each pixel has a texel of its own.  With
`GGL_REPLACE` a texture of the format `A_8` gives the alpha and the colour the rest: an alpha of 0
leaves the pixel, and one of 255 makes it the colour. -/
structure Documented (gl : GlLibrary σ π) : Prop where
  modes_call : ∀ s c, gl.modes (gl.call s c) = (gl.modes s).set c
  pixel_call : ∀ s c, c.draws = false → gl.pixel (gl.call s c) = gl.pixel s
  outside : ∀ s left top right bottom px py, ¬Inside left top right bottom px py →
    gl.pixel (gl.call s (.recti left top right bottom)) px py = gl.pixel s px py
  filled : ∀ s left top right bottom px py, (gl.modes s).Blends → (gl.modes s).textured = false →
    gl.OnSurface px py → Inside left top right bottom px py →
    gl.pixel (gl.call s (.recti left top right bottom)) px py =
      gl.tint (gl.modes s).color (gl.pixel s px py)
  textured : ∀ s left top right bottom px py texture, (gl.modes s).Blends →
    (gl.modes s).Uses texture → gl.OnSurface px py → Inside left top right bottom px py →
    texture.Contains (px + (gl.modes s).texCoord.1) (py + (gl.modes s).texCoord.2) →
    gl.pixel (gl.call s (.recti left top right bottom)) px py =
      gl.texel texture (px + (gl.modes s).texCoord.1) (py + (gl.modes s).texCoord.2)
        (gl.modes s).color (gl.pixel s px py)
  clear : ∀ texture u v color p, texture.format = .a8 → texture.byteAt u v = some 0 →
    gl.texel texture u v color p = p
  covered : ∀ texture u v color p, texture.format = .a8 → texture.byteAt u v = some 255 →
    gl.texel texture u v color p = gl.solid color

/-- The state after a sequence of calls. -/
def calls (gl : GlLibrary σ π) (s : σ) (list : List GlCall) : σ := list.foldl gl.call s

theorem calls_append (gl : GlLibrary σ π) (s : σ) (l l' : List GlCall) :
    gl.calls s (l ++ l') = gl.calls (gl.calls s l) l' :=
  List.foldl_append

end GlLibrary

/-! ## §2 The Functions -/

/-- What `gr_init` asks of the library. -/
def grInitCalls : List GlCall := [.colorBuffer, .activeTexture, .enableBlend, .blendFunc]

/-- `gr_color` -/
def grColor (r g b a : UInt8) : List GlCall :=
  let component (x : UInt8) : Int := ((x.toNat <<< 8 ||| x.toNat : Nat) : Int) + 1
  [.color4xv ⟨component r, component g, component b, component a⟩]

/-- `strlen` -/
def strlen (s : List UInt8) : Nat := (s.takeWhile (· ≠ 0)).length

/-- `gr_measure` -/
def grMeasure (font : GRFont) (s : List UInt8) : Int := int32 (font.cwidth.toNat * strlen s)

/-- The calls before a texture is used. -/
def useTexture (texture : Texture) : List GlCall :=
  [.bindTexture texture, .texEnvReplace, .texGenS, .texGenT, .enableTexture]

/-- `font->texture` -/
def GRFont.glyphs (font : GRFont) : Texture := ⟨font.texture, .a8⟩

/-- The loop of `gr_text`: the calls, and `x` after them. -/
def textLoop (font : GRFont) (y : Int) : Int → List UInt8 → List GlCall × Int
  | x, [] => ([], x)
  | x, c :: s =>
    if c = 0 then ([], x)
    else
      let off : UInt32 := c.toUInt32 - 32
      let glyph : List GlCall :=
        if off < 96 then
          [.texCoord2i (int32 ((off * font.cwidth).toNat - x)) (int32 (0 - y)),
            .recti x y (int32 (x + font.cwidth.toNat)) (int32 (y + font.cheight.toNat))]
        else []
      let rest := textLoop font y (int32 (x + font.cwidth.toNat)) s
      (glyph ++ rest.1, rest.2)

/-- `gr_text` -/
def grText (font : GRFont) (x y : Int) (s : List UInt8) : List GlCall × Int :=
  let loop := textLoop font (int32 (y - font.ascent.toNat)) x s
  (useTexture font.glyphs ++ loop.1, loop.2)

/-- `gr_get_width` -/
def grGetWidth : Option Texture → Nat
  | none => 0
  | some surface => surface.surface.width.toNat

/-- `gr_get_height` -/
def grGetHeight : Option Texture → Nat
  | none => 0
  | some surface => surface.surface.height.toNat

/-- `gr_texticon` -/
def grTexticon (x y : Int) : Option Texture → List GlCall
  | none => []
  | some icon =>
    useTexture icon ++
      [.texCoord2i (int32 (-x)) (int32 (-y)),
        .recti x y (int32 (x + grGetWidth (some icon))) (int32 (y + grGetHeight (some icon)))]

/-- `gr_fill`; the last two arguments are the right and the lower end. -/
def grFill (x y w h : Int) : List GlCall := [.disableTexture, .recti x y w h]

/-- `gr_blit` -/
def grBlit (source : Option Texture) (sx sy w h dx dy : Int) : List GlCall :=
  match source with
  | none => []
  | some source =>
    useTexture source ++
      [.texCoord2i (int32 (sx - dx)) (int32 (sy - dy)),
        .recti dx dy (int32 (dx + w)) (int32 (dy + h))]

/-- One call of a drawing function. -/
inductive Draw where
  | color (r g b a : UInt8)
  | fill (x y w h : Int)
  | text (x y : Int) (s : List UInt8)
  | texticon (x y : Int) (icon : Option Texture)
  | blit (source : Option Texture) (sx sy w h dx dy : Int)

/-- The calls it makes. -/
def Draw.calls (font : GRFont) : Draw → List GlCall
  | .color r g b a => grColor r g b a
  | .fill x y w h => grFill x y w h
  | .text x y s => (grText font x y s).1
  | .texticon x y icon => grTexticon x y icon
  | .blit source sx sy w h dx dy => grBlit source sx sy w h dx dy

/-! ## §3 Modes and Rectangles -/

section Rectangles

variable {σ π : Type} {gl : GlLibrary σ π}

/-- No call ends the blending. -/
theorem Modes.Blends.set {m : Modes} (h : m.Blends) (c : GlCall) : (m.set c).Blends := by
  obtain ⟨hbuffer, hunit, hblend, halpha⟩ := h
  cases c <;> exact ⟨by first | assumption | rfl, by first | assumption | rfl,
    by first | assumption | rfl, by first | assumption | rfl⟩

/-- The call sets the colour. -/
def GlCall.isColor : GlCall → Bool
  | .color4xv _ => true
  | _ => false

theorem Modes.color_set (m : Modes) {c : GlCall} (hc : c.isColor = false) :
    (m.set c).color = m.color := by
  cases c with
  | color4xv => cases hc
  | _ => rfl

namespace GlLibrary

variable {s : σ}

theorem Documented.blends_calls (hgl : gl.Documented) (h : (gl.modes s).Blends)
    (list : List GlCall) : (gl.modes (gl.calls s list)).Blends := by
  induction list generalizing s with
  | nil => exact h
  | cons c list ih =>
    apply ih
    rw [hgl.modes_call]
    exact h.set c

theorem Documented.color_calls (hgl : gl.Documented) {list : List GlCall}
    (h : ∀ c ∈ list, c.isColor = false) :
    (gl.modes (gl.calls s list)).color = (gl.modes s).color := by
  induction list generalizing s with
  | nil => rfl
  | cons c list ih =>
    obtain ⟨hc, hrest⟩ := List.forall_mem_cons.mp h
    refine (ih hrest).trans ?_
    rw [hgl.modes_call, Modes.color_set _ hc]

/-- A texture is bound and used, and nothing is drawn yet. -/
theorem Documented.calls_useTexture (hgl : gl.Documented) (s : σ) (texture : Texture) :
    (gl.modes (gl.calls s (useTexture texture))).Uses texture ∧
      gl.pixel (gl.calls s (useTexture texture)) = gl.pixel s := by
  constructor
  · simp only [calls, useTexture, List.foldl_cons, List.foldl_nil, hgl.modes_call]
    exact ⟨rfl, rfl, rfl, rfl, rfl⟩
  · simp only [calls, useTexture, List.foldl_cons, List.foldl_nil]
    rw [hgl.pixel_call _ _ rfl, hgl.pixel_call _ _ rfl, hgl.pixel_call _ _ rfl,
      hgl.pixel_call _ _ rfl, hgl.pixel_call _ _ rfl]

/-- Coordinates and a rectangle: each pixel gets the texel at the same distance from the corner. -/
theorem Documented.calls_texels (hgl : gl.Documented) {texture : Texture}
    (hblends : (gl.modes s).Blends) (huses : (gl.modes s).Uses texture) (u v x y w h : Int)
    {px py : Int} (hon : gl.OnSurface px py)
    (hin : Inside x y (x + w) (y + h) px py → texture.Contains (u + (px - x)) (v + (py - y))) :
    gl.pixel (gl.calls s [.texCoord2i (u - x) (v - y), .recti x y (x + w) (y + h)]) px py =
      if Inside x y (x + w) (y + h) px py then
        gl.texel texture (u + (px - x)) (v + (py - y)) (gl.modes s).color (gl.pixel s px py)
      else gl.pixel s px py := by
  have hu : px + (u - x) = u + (px - x) := by omega
  have hv : py + (v - y) = v + (py - y) := by omega
  have hpixel := hgl.pixel_call s (.texCoord2i (u - x) (v - y)) rfl
  have hmodes := hgl.modes_call s (.texCoord2i (u - x) (v - y))
  -- only the modes and the pixels of the state between the two calls matter
  show gl.pixel (gl.call (gl.call s (.texCoord2i (u - x) (v - y))) _) px py = _
  generalize gl.call s (.texCoord2i (u - x) (v - y)) = t at hpixel hmodes
  split
  · next hinside =>
    -- the coordinates move the texture, and nothing else has changed
    have htexel := hgl.textured t x y (x + w) (y + h) px py texture
    rw [hmodes] at htexel
    have hcontains := hin hinside
    rw [← hu, ← hv] at hcontains
    rw [htexel (hblends.set _) ⟨huses.bound, huses.replace, huses.oneToOneS, huses.oneToOneT,
      huses.textured⟩ hon hinside hcontains, hpixel]
    show gl.texel texture (px + (u - x)) (py + (v - y)) (gl.modes s).color _ = _
    rw [hu, hv]
  · next hinside => rw [hgl.outside t x y (x + w) (y + h) px py hinside, hpixel]

/-- The modes after coordinates and a rectangle are good for the next. -/
theorem Documented.uses_texels (hgl : gl.Documented) {texture : Texture}
    (huses : (gl.modes s).Uses texture) (u v l t r b : Int) :
    (gl.modes (gl.calls s [.texCoord2i u v, .recti l t r b])).Uses texture := by
  simp only [calls, List.foldl_cons, List.foldl_nil, hgl.modes_call]
  exact ⟨huses.bound, huses.replace, huses.oneToOneS, huses.oneToOneT, huses.textured⟩

end GlLibrary

end Rectangles

/-! ## §4 What Is to Be Painted -/

/-- All of it is far enough from the limits of an `int`. -/
def Fits (x w : Int) : Prop := -2 ^ 30 ≤ x ∧ 0 ≤ w ∧ x + w < 2 ^ 30

/-- A text near enough to the screen, in a font whose texture has its 96 characters. -/
structure TextFits (font : GRFont) (x y : Int) (s : List UInt8) : Prop where
  cell : 0 < font.cwidth.toNat
  chars : Fits 0 (96 * font.cwidth.toNat)
  across : Fits x (font.cwidth.toNat * strlen s)
  down : Fits (y - font.ascent.toNat) font.cheight.toNat
  wide : 96 * font.cwidth.toNat ≤ font.texture.width.toNat
  high : font.cheight.toNat ≤ font.texture.height.toNat

/-- A texel of a character, from the corner of its cell. -/
def texelOf (font : GRFont) (c : UInt8) (u v : Int) : Option (Int × Int) :=
  if 32 ≤ c.toNat ∧ c.toNat < 128 then some ((c.toNat - 32) * font.cwidth.toNat + u, v) else none

/-- The texel that a text from `x` and `top` on has at a pixel: each printable character has its own
cell. -/
def glyphAt (font : GRFont) (x top : Int) (s : List UInt8) (px py : Int) : Option (Int × Int) :=
  if x ≤ px ∧ top ≤ py ∧ py < top + font.cheight.toNat then
    let column := (px - x).toNat
    (s.takeWhile (· ≠ 0))[column / font.cwidth.toNat]?.bind fun c =>
      texelOf font c (column % font.cwidth.toNat : Nat) (py - top)
  else none

/-- The surface as those who draw on it see it: no modes but the colour. -/
structure Painting (π : Type) where
  color : GlColor
  pixel : Int → Int → π

section Painting

variable {σ π : Type} (gl : GlLibrary σ π) (font : GRFont)

/-- A part of a picture that begins at `sx`, `sy` is painted at `dx`, `dy`. -/
def Painting.paste (p : Painting π) (source : Texture) (sx sy w h dx dy : Int) : Painting π :=
  { p with
    pixel := fun px py =>
      if Inside dx dy (dx + w) (dy + h) px py then
        gl.texel source (sx + (px - dx)) (sy + (py - dy)) p.color (p.pixel px py)
      else p.pixel px py }

/-- What one drawing function is to paint. -/
def Painting.next (p : Painting π) : Draw → Painting π
  | .color r g b a =>
    { p with
      color := ⟨257 * r.toNat + 1, 257 * g.toNat + 1, 257 * b.toNat + 1, 257 * a.toNat + 1⟩ }
  | .fill x y w h =>
    { p with
      pixel := fun px py =>
        if Inside x y w h px py then gl.tint p.color (p.pixel px py) else p.pixel px py }
  | .text x y s =>
    { p with
      pixel := fun px py =>
        (glyphAt font x (y - font.ascent.toNat) s px py).elim (p.pixel px py) fun uv =>
          gl.texel font.glyphs uv.1 uv.2 p.color (p.pixel px py) }
  | .texticon x y icon =>
    icon.elim p fun icon =>
      p.paste gl icon 0 0 icon.surface.width.toNat icon.surface.height.toNat x y
  | .blit source sx sy w h dx dy => source.elim p fun source => p.paste gl source sx sy w h dx dy

end Painting

/-- What is drawn is near enough to the screen, and the part of a picture is one of the picture. -/
def Draw.Fits (font : GRFont) : Draw → Prop
  | .color .. | .fill .. => True
  | .text x y s => TextFits font x y s
  | .texticon x y icon => ∀ t ∈ icon,
    Recovery.Fits x t.surface.width.toNat ∧ Recovery.Fits y t.surface.height.toNat
  | .blit source sx sy w h dx dy => ∀ t ∈ source,
    Recovery.Fits dx w ∧ Recovery.Fits dy h ∧
      (0 ≤ sx ∧ sx < 2 ^ 30 ∧ sx + w ≤ t.surface.width.toNat) ∧
      (0 ≤ sy ∧ sy < 2 ^ 30 ∧ sy + h ≤ t.surface.height.toNat)

/-! ## §5 Texts -/

section Text

variable {font : GRFont}

/-- The characters that are drawn. -/
theorem printable_iff (c : UInt8) :
    c.toUInt32 - 32 < 96 ↔ 32 ≤ c.toNat ∧ c.toNat < 128 := by
  have hc : c.toUInt32.toNat = c.toNat := UInt8.toNat_toUInt32 c
  have hlt := c.toNat_lt
  rw [UInt32.lt_iff_toNat_lt, UInt32.toNat_sub, hc]
  have h32 : (32 : UInt32).toNat = 32 := rfl
  have h96 : (96 : UInt32).toNat = 96 := rfl
  -- below 32 the unsigned difference wraps around, far beyond 96
  rw [h32, h96]
  omega

theorem printable_toNat {c : UInt8} (hc : 32 ≤ c.toNat) :
    (c.toUInt32 - 32).toNat = c.toNat - 32 := by
  have heq : c.toUInt32.toNat = c.toNat := UInt8.toNat_toUInt32 c
  have hlt := c.toNat_lt
  have h32 : (32 : UInt32).toNat = 32 := rfl
  rw [UInt32.toNat_sub, heq, h32]
  omega

theorem takeWhile_cons {c : UInt8} (hc : c ≠ 0) (s : List UInt8) :
    (c :: s).takeWhile (· ≠ 0) = c :: s.takeWhile (· ≠ 0) := by
  rw [List.takeWhile_cons, if_pos (decide_eq_true hc)]

theorem strlen_cons {c : UInt8} (hc : c ≠ 0) (s : List UInt8) :
    strlen (c :: s) = strlen s + 1 := by
  rw [strlen, takeWhile_cons hc, List.length_cons]
  rfl

/-- Left of a text, above it and below it there is nothing of it. -/
theorem glyphAt_outside {x top px py : Int} (s : List UInt8)
    (h : ¬(x ≤ px ∧ top ≤ py ∧ py < top + font.cheight.toNat)) :
    glyphAt font x top s px py = none :=
  if_neg h

/-- The first cell, and the others. -/
theorem glyphAt_cons (hcell : 0 < font.cwidth.toNat) {c : UInt8} (hc : c ≠ 0) (s : List UInt8)
    (x top px py : Int) :
    glyphAt font x top (c :: s) px py =
      if Inside x top (x + font.cwidth.toNat) (top + font.cheight.toNat) px py then
        texelOf font c (px - x) (py - top)
      else glyphAt font (x + font.cwidth.toNat) top s px py := by
  by_cases hin : x ≤ px ∧ top ≤ py ∧ py < top + font.cheight.toNat
  · by_cases hfirst : px < x + font.cwidth.toNat
    · -- in the first cell: the column is less than a cell wide
      have hrect : Inside x top (x + font.cwidth.toNat) (top + font.cheight.toNat) px py :=
        ⟨hin.1, hfirst, hin.2⟩
      have hcolumn : (px - x).toNat < font.cwidth.toNat := by omega
      have hback : ((px - x).toNat : Int) = px - x := Int.toNat_of_nonneg (by omega)
      rw [if_pos hrect, glyphAt, if_pos hin, takeWhile_cons hc]
      simp only [Nat.div_eq_of_lt hcolumn, Nat.mod_eq_of_lt hcolumn, List.getElem?_cons_zero,
        Option.bind_some, hback]
    · -- further to the right: one cell less to go, in the rest of the string
      have hrect : ¬Inside x top (x + font.cwidth.toNat) (top + font.cheight.toNat) px py :=
        fun h => hfirst h.2.1
      have hrest : x + font.cwidth.toNat ≤ px ∧ top ≤ py ∧ py < top + font.cheight.toNat :=
        ⟨by omega, hin.2⟩
      have hcolumn : (px - x).toNat =
          (px - (x + font.cwidth.toNat)).toNat + font.cwidth.toNat := by omega
      rw [if_neg hrect, glyphAt, if_pos hin, glyphAt, if_pos hrest, takeWhile_cons hc]
      simp only [hcolumn, Nat.add_div_right _ hcell, Nat.add_mod_right, List.getElem?_cons_succ]
  · have hrect : ¬Inside x top (x + font.cwidth.toNat) (top + font.cheight.toNat) px py :=
      fun h => hin ⟨h.1, h.2.2⟩
    rw [if_neg hrect, glyphAt_outside _ hin, glyphAt_outside _ (by omega)]

/-- A text has nothing but its own characters, and no texel beside them. -/
theorem glyphAt_inside (hcell : 0 < font.cwidth.toNat) {x top px py : Int} {s : List UInt8}
    {uv : Int × Int} (h : glyphAt font x top s px py = some uv) :
    0 ≤ uv.1 ∧ uv.1 < 96 * font.cwidth.toNat ∧ 0 ≤ uv.2 ∧ uv.2 < font.cheight.toNat := by
  unfold glyphAt at h
  split at h
  · rename_i hin
    obtain ⟨c, -, hc⟩ := Option.bind_eq_some_iff.mp h
    unfold texelOf at hc
    split at hc
    · rename_i hprintable
      obtain rfl := Option.some.inj hc
      have hmod := Nat.mod_lt (px - x).toNat hcell
      have hcast : ((c.toNat : Int) - 32) = ((c.toNat - 32 : Nat) : Int) := by omega
      -- the last of the 96 characters begins 95 cells from the left
      have hle : (c.toNat - 32) * font.cwidth.toNat ≤ 95 * font.cwidth.toNat :=
        Nat.mul_le_mul_right _ (by omega)
      show 0 ≤ ((c.toNat : Int) - 32) * font.cwidth.toNat + _ ∧ _
      rw [hcast]
      omega
    · cases hc
  · cases h

theorem TextFits.contains {x y : Int} {s : List UInt8} (h : TextFits font x y s) {u v : Int}
    (huv : 0 ≤ u ∧ u < 96 * font.cwidth.toNat ∧ 0 ≤ v ∧ v < font.cheight.toNat) :
    font.glyphs.Contains u v := by
  have hwide : 96 * font.cwidth.toNat ≤ font.glyphs.surface.width.toNat := h.wide
  have hhigh : font.cheight.toNat ≤ font.glyphs.surface.height.toNat := h.high
  unfold Texture.Contains
  omega

/-- The loop sets no colour. -/
theorem isColor_textLoop (y : Int) (s : List UInt8) (x : Int) :
    ∀ c ∈ (textLoop font y x s).1, c.isColor = false := by
  -- character by character: the loop ends at the first zero byte
  induction s generalizing x with
  | nil => exact fun c hc => absurd hc List.not_mem_nil
  | cons a s ih =>
    rw [textLoop]
    split
    · -- the zero byte that ends the text
      exact fun c hc => absurd hc List.not_mem_nil
    · refine List.forall_mem_append.mpr ⟨?_, ih _⟩
      -- a character above 127 only moves on
      split
      · simp [GlCall.isColor]
      · exact fun c hc => absurd hc List.not_mem_nil

variable {σ π : Type} {gl : GlLibrary σ π}

/-- **The loop of `gr_text`**, by induction on the string: a step paints the first cell, the rest of
the loop the others, and none of the cells is painted twice. -/
theorem textLoop_paints (hgl : gl.Documented) {top : Int} {x₀ y₀ : Int} {s₀ : List UInt8}
    (hfits : TextFits font x₀ y₀ s₀) (hdown : Fits top font.cheight.toNat)
    (text : List UInt8) {x : Int} (hacross : Fits x (font.cwidth.toNat * strlen text)) {s : σ}
    (hblends : (gl.modes s).Blends) (huses : (gl.modes s).Uses font.glyphs) {px py : Int}
    (hon : gl.OnSurface px py) :
    gl.pixel (gl.calls s (textLoop font top x text).1) px py =
      (glyphAt font x top text px py).elim (gl.pixel s px py) fun uv =>
        gl.texel font.glyphs uv.1 uv.2 (gl.modes s).color (gl.pixel s px py) := by
  -- character by character, with the pen where the loop has it; the pixels already painted are
  -- those of `s`
  induction text generalizing x s with
  | nil =>
    have hnone : glyphAt font x top [] px py = none := by
      simp [glyphAt]
    rw [hnone]
    rfl
  | cons a text ih =>
    by_cases ha : a = 0
    · -- the end of the string
      have hnone : glyphAt font x top (a :: text) px py = none := by
        simp [glyphAt, ha]
      rw [hnone, textLoop, if_pos ha]
      rfl
    · have hcell := hfits.cell
      have hchars := hfits.chars
      rw [strlen_cons ha] at hacross
      have hstep : (font.cwidth.toNat : Int) * (strlen text + 1 : Nat) =
          font.cwidth.toNat * strlen text + font.cwidth.toNat := by
        push_cast
        ring
      have hpos : (0 : Int) ≤ font.cwidth.toNat * strlen text := by positivity
      unfold Fits at hacross hdown hchars
      rw [hstep] at hacross
      -- the next cell is still near the screen, so nothing wraps around
      have hr : int32 (x + font.cwidth.toNat) = x + font.cwidth.toNat :=
        int32_of_range (by omega) (by omega)
      have hrest : Fits (x + font.cwidth.toNat) (font.cwidth.toNat * strlen text) := by
        unfold Fits
        omega
      rw [glyphAt_cons hcell ha, textLoop, if_neg ha]
      simp only [hr]
      rw [GlLibrary.calls_append]
      -- to the left of the other cells there is nothing of them
      have hleft (h : Inside x top (x + font.cwidth.toNat) (top + font.cheight.toNat) px py) :
          glyphAt font (x + font.cwidth.toNat) top text px py = none :=
        glyphAt_outside text fun hrest => by
          have := h.2.1
          omega
      by_cases hprintable : a.toUInt32 - 32 < 96
      · obtain ⟨hlow, hhigh⟩ := (printable_iff a).mp hprintable
        have htexel : texelOf font a (px - x) (py - top) =
            some ((a.toNat - 32) * font.cwidth.toNat + (px - x), py - top) :=
          if_pos ⟨hlow, hhigh⟩
        have hle : (a.toNat - 32) * font.cwidth.toNat ≤ 95 * font.cwidth.toNat :=
          Nat.mul_le_mul_right _ (by omega)
        have hoff : (((a.toUInt32 - 32) * font.cwidth).toNat : Int) =
            ((a.toNat - 32) * font.cwidth.toNat : Nat) := by
          rw [UInt32.toNat_mul, printable_toNat hlow, Nat.mod_eq_of_lt (by omega)]
        -- the source column and row of the cell do not wrap around either
        have hu : int32 (((a.toUInt32 - 32) * font.cwidth).toNat - x) =
            ((a.toNat - 32) * font.cwidth.toNat : Nat) - x := by
          rw [hoff, int32_of_range (by omega) (by omega)]
        have hv : int32 (0 - top) = 0 - top := int32_of_range (by omega) (by omega)
        have hb : int32 (top + font.cheight.toNat) = top + font.cheight.toNat :=
          int32_of_range (by omega) (by omega)
        have hcontains (h : Inside x top (x + font.cwidth.toNat) (top + font.cheight.toNat) px py) :
            font.glyphs.Contains (((a.toNat - 32) * font.cwidth.toNat : Nat) + (px - x))
              (0 + (py - top)) := by
          obtain ⟨h₁, h₂, h₃, h₄⟩ := h
          exact hfits.contains ⟨by omega, by omega, by omega, by omega⟩
        have hcell := hgl.calls_texels hblends huses ((a.toNat - 32) * font.cwidth.toNat : Nat) 0 x
          top font.cwidth.toNat font.cheight.toNat hon hcontains
        -- this cell first, then what the rest of the text makes of the pixel
        rw [if_pos hprintable, htexel, hu, hv, hb,
          ih hrest (hgl.blends_calls hblends _) (hgl.uses_texels huses _ _ _ _ _ _),
          hgl.color_calls (by simp [GlCall.isColor]), hcell]
        split
        · rename_i hrect
          have hcast : ((a.toNat - 32 : Nat) : Int) = a.toNat - 32 := by omega
          rw [hleft hrect, Option.elim_none, Option.elim_some, Int.zero_add, Nat.cast_mul, hcast]
        · rfl
      · -- no glyph: the cell stays as it is
        have htexel : texelOf font a (px - x) (py - top) = none :=
          if_neg (by rwa [← printable_iff])
        have hempty : gl.calls s [] = s := rfl
        rw [if_neg hprintable, htexel, hempty, ih hrest hblends huses]
        split
        · rename_i hrect
          rw [hleft hrect]
        · rfl

/-- `gr_text` returns where the text ends: `gr_measure` further on. -/
theorem grText_advances {x : Int} (hx : int32 x = x) (y : Int) (s : List UInt8) :
    (grText font x y s).2 = int32 (x + grMeasure font s) := by
  have hloop (top : Int) : (textLoop font top x s).2 = int32 (x + grMeasure font s) := by
    induction s generalizing x with
    | nil =>
      have hzero : grMeasure font [] = 0 := by
        simp [grMeasure, strlen, int32]
      rw [hzero, Int.add_zero, hx]
      rfl
    | cons a s ih =>
      by_cases ha : a = 0
      · have hzero : grMeasure font (a :: s) = 0 := by
          simp [grMeasure, strlen, ha, int32]
        rw [hzero, Int.add_zero, hx, textLoop, if_pos ha]
      · -- one cell, and the rest: the sums agree after the wrap-around of every step
        have hstep : (font.cwidth.toNat : Int) * (strlen s + 1 : Nat) =
            font.cwidth.toNat + font.cwidth.toNat * strlen s := by
          push_cast
          ring
        rw [textLoop, if_neg ha, grMeasure, strlen_cons ha, hstep]
        show (textLoop font top (int32 (x + font.cwidth.toNat)) s).2 = _
        rw [ih (int32_int32 _), grMeasure]
        simp only [int32, Int.bmod_add_bmod, Int.add_bmod_bmod, Int.add_assoc]
  exact hloop _

end Text

/-! ## §6 Every Run -/

section Runs

variable {σ π : Type} {gl : GlLibrary σ π} {font : GRFont} {s : σ} {p : Painting π}

/-- The library is ready to draw, and the surface is as it is to be. -/
structure Agrees (gl : GlLibrary σ π) (s : σ) (p : Painting π) : Prop where
  blends : (gl.modes s).Blends
  color : (gl.modes s).color = p.color
  pixel : ∀ px py, gl.OnSurface px py → gl.pixel s px py = p.pixel px py

/-- A byte as a component of 16 bits, of which all are set for 255. -/
theorem component_eq (x : UInt8) :
    ((x.toNat <<< 8 ||| x.toNat : Nat) : Int) + 1 = 257 * x.toNat + 1 := by
  have hx : x.toNat < 2 ^ 8 := x.toNat_lt
  rw [← Nat.shiftLeft_add_eq_or_of_lt hx, Nat.shiftLeft_eq]
  omega

theorem agrees_color (hgl : gl.Documented) (h : Agrees gl s p) (r g b a : UInt8) :
    Agrees gl (gl.calls s (grColor r g b a)) (p.next gl font (.color r g b a)) where
  blends := hgl.blends_calls h.blends _
  color := by
    simp only [GlLibrary.calls, grColor, List.foldl_cons, List.foldl_nil, hgl.modes_call,
      component_eq]
    rfl
  pixel px py hon := by
    simp only [GlLibrary.calls, grColor, List.foldl_cons, List.foldl_nil]
    rw [hgl.pixel_call _ _ rfl]
    exact h.pixel px py hon

/-- A bar does not take a texture that an earlier function has left. -/
theorem agrees_fill (hgl : gl.Documented) (h : Agrees gl s p) (x y w b : Int) :
    Agrees gl (gl.calls s (grFill x y w b)) (p.next gl font (.fill x y w b)) where
  blends := hgl.blends_calls h.blends _
  color := (hgl.color_calls (by simp [grFill, GlCall.isColor])).trans h.color
  pixel px py hon := by
    -- disabling the texture draws nothing and only changes the modes
    have hpixel := hgl.pixel_call s .disableTexture rfl
    have hmodes := hgl.modes_call s .disableTexture
    show gl.pixel (gl.call (gl.call s .disableTexture) (.recti x y w b)) px py =
      if Inside x y w b px py then gl.tint p.color (p.pixel px py) else p.pixel px py
    generalize gl.call s .disableTexture = t at hpixel hmodes
    rw [← h.pixel px py hon, ← hpixel]
    split
    · -- inside the rectangle the library mixes in the colour set last
      next hin =>
      have hfilled := hgl.filled t x y w b px py
      rw [hmodes] at hfilled
      rw [hfilled (h.blends.set _) rfl hon hin, ← h.color]
      rfl
    · next hin => exact hgl.outside t x y w b px py hin

/-- A part of a picture, as `gr_texticon` and `gr_blit` draw it. -/
theorem agrees_paste (hgl : gl.Documented) (h : Agrees gl s p) (source : Texture)
    {sx sy w b dx dy : Int} (hx : Fits dx w) (hy : Fits dy b)
    (hsx : 0 ≤ sx ∧ sx < 2 ^ 30 ∧ sx + w ≤ source.surface.width.toNat)
    (hsy : 0 ≤ sy ∧ sy < 2 ^ 30 ∧ sy + b ≤ source.surface.height.toNat) :
    Agrees gl (gl.calls s (useTexture source ++
      [.texCoord2i (int32 (sx - dx)) (int32 (sy - dy)),
        .recti dx dy (int32 (dx + w)) (int32 (dy + b))])) (p.paste gl source sx sy w b dx dy) where
  blends := hgl.blends_calls h.blends _
  color := (hgl.color_calls (by simp [useTexture, GlCall.isColor])).trans h.color
  pixel px py hon := by
    unfold Fits at hx hy
    -- no coordinate is reduced: all of them lie within `int`
    have hu : int32 (sx - dx) = sx - dx := int32_of_range (by omega) (by omega)
    have hv : int32 (sy - dy) = sy - dy := int32_of_range (by omega) (by omega)
    have hr : int32 (dx + w) = dx + w := int32_of_range (by omega) (by omega)
    have hb : int32 (dy + b) = dy + b := int32_of_range (by omega) (by omega)
    obtain ⟨huses, hsame⟩ := hgl.calls_useTexture s source
    have hcolor : (gl.modes (gl.calls s (useTexture source))).color = p.color :=
      (hgl.color_calls (by simp [useTexture, GlCall.isColor])).trans h.color
    -- the texture has a texel for every pixel of the rectangle
    have hcontains (hin : Inside dx dy (dx + w) (dy + b) px py) :
        source.Contains (sx + (px - dx)) (sy + (py - dy)) := by
      obtain ⟨h₁, h₂, h₃, h₄⟩ := hin
      exact ⟨by omega, by omega, by omega, by omega⟩
    rw [hu, hv, hr, hb, GlLibrary.calls_append,
      hgl.calls_texels (hgl.blends_calls h.blends _) huses sx sy dx dy w b hon hcontains, hsame,
      hcolor, h.pixel px py hon]
    rfl

theorem agrees_text (hgl : gl.Documented) (h : Agrees gl s p) {x y : Int} {text : List UInt8}
    (hfits : TextFits font x y text) :
    Agrees gl (gl.calls s (grText font x y text).1) (p.next gl font (.text x y text)) where
  blends := hgl.blends_calls h.blends _
  color := by
    refine (hgl.color_calls (List.forall_mem_append.mpr ⟨?_, ?_⟩)).trans h.color
    · simp [useTexture, GlCall.isColor]
    · exact isColor_textLoop _ _ _
  pixel px py hon := by
    obtain ⟨huses, hsame⟩ := hgl.calls_useTexture s font.glyphs
    have hcolor : (gl.modes (gl.calls s (useTexture font.glyphs))).color = p.color :=
      (hgl.color_calls (by simp [useTexture, GlCall.isColor])).trans h.color
    -- `y -= font->ascent` stays within `int`
    have htop : int32 (y - font.ascent.toNat) = y - font.ascent.toNat := by
      obtain ⟨hlow, hnonneg, hhigh⟩ := hfits.down
      exact int32_of_range (by omega) (by omega)
    simp only [grText, htop]
    -- the texture is bound once, before the loop
    rw [GlLibrary.calls_append, textLoop_paints hgl hfits hfits.down text hfits.across
      (hgl.blends_calls h.blends _) huses hon, hsame, hcolor, h.pixel px py hon]
    rfl

/-- **One function** paints what it is to paint, whatever modes the ones before have left. -/
theorem agrees_draw (hgl : gl.Documented) (h : Agrees gl s p) {d : Draw} (hfits : d.Fits font) :
    Agrees gl (gl.calls s (d.calls font)) (p.next gl font d) := by
  cases d with
  | color r g b a => exact agrees_color hgl h r g b a
  | fill x y w b => exact agrees_fill hgl h x y w b
  | text x y text => exact agrees_text hgl h hfits
  | texticon x y icon =>
    cases icon with
    | none => exact h
    | some icon =>
      obtain ⟨hx, hy⟩ := hfits icon rfl
      -- the part is the whole picture, from its corner
      have hcorner (n : ℕ) : (0 : Int) ≤ 0 ∧ (0 : Int) < 2 ^ 30 ∧ 0 + (n : Int) ≤ n := by omega
      have hwhole := agrees_paste hgl h icon hx hy (hcorner _) (hcorner _)
      rw [Int.zero_sub, Int.zero_sub] at hwhole
      exact hwhole
  | blit source sx sy w b dx dy =>
    cases source with
    | none => exact h
    | some source =>
      obtain ⟨hx, hy, hsx, hsy⟩ := hfits source rfl
      exact agrees_paste hgl h source hx hy hsx hsy

theorem agrees_run (hgl : gl.Documented) (h : Agrees gl s p) {draws : List Draw}
    (hfits : ∀ d ∈ draws, d.Fits font) :
    Agrees gl (gl.calls s (draws.flatMap (Draw.calls font)))
      (draws.foldl (Painting.next gl font) p) := by
  induction draws generalizing s p with
  | nil => exact h
  | cons d draws ih =>
    obtain ⟨hd, hrest⟩ := List.forall_mem_cons.mp hfits
    rw [List.flatMap_cons, GlLibrary.calls_append, List.foldl_cons]
    exact ih (agrees_draw hgl h hd) hrest

/-- After `gr_init` the library is ready to draw, and nothing has been drawn. -/
theorem agrees_init (hgl : gl.Documented) (s : σ) :
    Agrees gl (gl.calls s grInitCalls) ⟨(gl.modes s).color, gl.pixel s⟩ where
  blends := by
    simp only [GlLibrary.calls, grInitCalls, List.foldl_cons, List.foldl_nil, hgl.modes_call]
    exact ⟨rfl, rfl, rfl, rfl⟩
  color := hgl.color_calls (by simp [grInitCalls, GlCall.isColor])
  pixel px py _ := by
    simp only [GlLibrary.calls, grInitCalls, List.foldl_cons, List.foldl_nil]
    rw [hgl.pixel_call _ _ rfl, hgl.pixel_call _ _ rfl, hgl.pixel_call _ _ rfl,
      hgl.pixel_call _ _ rfl]

/-- **Every run of the drawing functions** after `gr_init` paints the surface as it is to be
painted: each function what it says, in the colour that was set last, and none of them anything of
the modes that the others have left in the library. -/
theorem draws_paint (hgl : gl.Documented) (s : σ) {draws : List Draw}
    (hfits : ∀ d ∈ draws, d.Fits font) {px py : Int} (hon : gl.OnSurface px py) :
    gl.pixel (gl.calls s (grInitCalls ++ draws.flatMap (Draw.calls font))) px py =
      (draws.foldl (Painting.next gl font) ⟨(gl.modes s).color, gl.pixel s⟩).pixel px py := by
  rw [GlLibrary.calls_append]
  exact (agrees_run hgl (agrees_init hgl s) hfits).pixel px py hon

end Runs

/-! ## §7 A Library -/

/-- Red, green and blue of a pixel, in 5, 6 and 5 bits. -/
abbrev Rgb565 := ℕ × ℕ × ℕ

/-- A library in memory, for bars and texts. -/
structure Canvas where
  modes : Modes
  pixel : Int → Int → Rgb565

namespace Canvas

/-- The upper bits of the components, of which `0x10000` is the largest. -/
def solid (c : GlColor) : Rgb565 :=
  let component (x : Int) (bits : ℕ) : ℕ := (x - x / 0x10000).toNat / 2 ^ (16 - bits)
  (component c.r 5, component c.g 6, component c.b 5)

/-- A colour over another, with an alpha up to 256. -/
def mixed (alpha : ℕ) (c p : Rgb565) : Rgb565 :=
  let mix (x y : ℕ) : ℕ := (x * alpha + y * (256 - alpha)) / 256
  (mix c.1 p.1, mix c.2.1 p.2.1, mix c.2.2 p.2.2)

def tint (c : GlColor) (p : Rgb565) : Rgb565 := mixed (c.a.toNat / 256) (solid c) p

/-- A texel of a font; pictures are left out. -/
def texel (texture : Texture) (u v : Int) (c : GlColor) (p : Rgb565) : Rgb565 :=
  match texture.format with
  | .a8 => (texture.byteAt u v).elim p fun byte => mixed (byte.toNat + byte.toNat / 128) (solid c) p
  | .color _ => p

/-- What a rectangle makes of a pixel. -/
def drawn (canvas : Canvas) (px py : Int) : Rgb565 :=
  let m := canvas.modes
  if m.textured then
    m.texture.elim (canvas.pixel px py) fun texture =>
      texel texture (px + m.texCoord.1) (py + m.texCoord.2) m.color (canvas.pixel px py)
  else tint m.color (canvas.pixel px py)

def call (canvas : Canvas) (c : GlCall) : Canvas where
  modes := canvas.modes.set c
  pixel := match c with
    | .recti left top right bottom => fun px py =>
      if Inside left top right bottom px py then canvas.drawn px py else canvas.pixel px py
    | _ => canvas.pixel

/-- The library, for a surface of this size. -/
def library (width height : ℕ) : GlLibrary Canvas Rgb565 where
  call := call
  modes := modes
  pixel := pixel
  width := width
  height := height
  tint := tint
  solid := solid
  texel := texel

theorem mixed_zero (c p : Rgb565) : mixed 0 c p = p := by
  simp [mixed]

theorem mixed_all (c p : Rgb565) : mixed 256 c p = c := by
  simp [mixed]

theorem documented (width height : ℕ) : (library width height).Documented where
  modes_call s c := rfl
  pixel_call s c hc := by
    -- only `recti` stores pixels
    cases c with
    | recti => cases hc
    | _ => rfl
  outside s left top right bottom px py h := if_neg h
  filled s left top right bottom px py _ htextured _ hin := by
    show (if Inside left top right bottom px py then s.drawn px py else s.pixel px py) = _
    rw [if_pos hin, drawn]
    exact if_neg (by rw [show s.modes.textured = false from htextured]; decide)
  textured s left top right bottom px py texture _ huses _ hin _ := by
    show (if Inside left top right bottom px py then s.drawn px py else s.pixel px py) = _
    have hbound : s.modes.texture = some texture := huses.bound
    rw [if_pos hin, drawn]
    simp only [if_pos (show s.modes.textured = true from huses.textured), hbound, Option.elim_some]
    rfl
  -- an A_8 byte is the share of the colour: 0 leaves the pixel as it was
  clear texture u v color p hformat hbyte := by
    show texel texture u v color p = p
    simp [texel, hformat, hbyte, mixed_zero]
  -- and 255 replaces it
  covered texture u v color p hformat hbyte := by
    show texel texture u v color p = solid color
    simp [texel, hformat, hbyte, mixed_all]

/-- A black surface, and no mode set. -/
def blank : Canvas where
  modes := ⟨false, false, false, false, ⟨0, 0, 0, 0⟩, none, false, false, false, false, (0, 0)⟩
  pixel := fun _ _ => (0, 0, 0)

end Canvas

/-- A font of blocks, one pixel by three. -/
def blocks : GRFont := ⟨⟨96, 3, 96, List.replicate 288 255⟩, 1, 3, 1⟩

/-- A red text on a white bar. -/
def redText : List Draw :=
  [.color 255 255 255 255, .fill 0 0 40 30, .color 255 0 0 255, .text 10 20 (bytes "OK")]

theorem fits_redText : ∀ d ∈ redText, d.Fits blocks := by
  have htext : TextFits blocks 10 20 (bytes "OK") :=
    { cell := by decide
      chars := by unfold Fits; decide
      across := by unfold Fits; decide
      down := by unfold Fits; decide
      wide := by decide
      high := by decide }
  intro d hd
  simp only [redText, List.mem_cons, List.not_mem_nil, or_false] at hd
  rcases hd with rfl | rfl | rfl | rfl
  · exact trivial
  · exact trivial
  · exact trivial
  · exact htext

theorem draws_paint_small :
    (Canvas.library 40 30).pixel ((Canvas.library 40 30).calls Canvas.blank
      (grInitCalls ++ redText.flatMap (Draw.calls blocks))) 11 20 = (31, 0, 0) := by
  have hon : (Canvas.library 40 30).OnSurface 11 20 := by
    unfold GlLibrary.OnSurface
    decide
  rw [draws_paint (Canvas.documented 40 30) Canvas.blank fits_redText hon]
  decide +kernel

end OdroidU2.Recovery
