import OdroidU2.Foundations.Prog

/-!
# Screen of the Recovery

`recovery/graphics.c`: one or two frames in the memory of the framebuffer device, and a surface in
the memory of the process that everything is drawn on.  `gr_flip` copies the surface to a frame and
asks the driver to show it.

The static variables are one record, together with what the kernel holds: the framebuffer memory,
the line the display begins at, the open descriptors and the blocks that are allocated.  Offsets
into the framebuffer memory stand for the pointers into its mapping.
-/

namespace OdroidU2.Recovery

open OdroidU2.Foundations Prog

/-! ## §1 Data Types -/

/-- The three settings of `PIXEL_FORMAT`. -/
inductive PixelFormat where
  | bgra8888
  | rgbx8888
  | rgb565
  deriving DecidableEq, Repr

/-- `PIXEL_SIZE` -/
def PixelFormat.size : PixelFormat → UInt32
  | .bgra8888 => 4
  | .rgbx8888 => 4
  | .rgb565 => 2

/-- `struct fb_bitfield` -/
structure FbBitfield where
  offset : UInt32
  length : UInt32
  deriving DecidableEq, Repr

/-- The members of `struct fb_var_screeninfo` that are set or read. -/
structure FbVarScreeninfo where
  xres : UInt32
  yres : UInt32
  yresVirtual : UInt32
  yoffset : UInt32
  bitsPerPixel : UInt32
  red : FbBitfield
  green : FbBitfield
  blue : FbBitfield
  transp : FbBitfield
  deriving DecidableEq, Repr

/-- The members of `struct fb_fix_screeninfo` that are read. -/
structure FbFixScreeninfo where
  smemLen : UInt32
  lineLength : UInt32
  deriving DecidableEq, Repr

/-- `GGLSurface`, over what it points to, without the members that are only handed on. -/
structure GGLSurface (δ : Type) where
  width : UInt32
  height : UInt32
  stride : UInt32
  data : δ

/-- `GRFont`; the texture holds the bytes that were written from its start on. -/
structure GRFont where
  texture : GGLSurface (List UInt8)
  cwidth : UInt32
  cheight : UInt32
  ascent : UInt32

/-- The font that is compiled in. -/
structure Font where
  width : UInt32
  height : UInt32
  cwidth : UInt32
  cheight : UInt32
  rundata : List UInt8

/-- The requests of `ioctl`. -/
inductive Request where
  | getVscreeninfo
  | putVscreeninfo
  | getFscreeninfo
  | kdSetMode (graphics : Bool)
  | blank (on : Bool)
  deriving DecidableEq, Repr

/-- What the code does that others can observe. -/
inductive GrEvent where
  | assign
  | openFile (path : String) (fd : Int)
  | close (fd : Int)
  | ioctl (fd : Int) (request : Request) (ok : Bool)
  | mmap (ok : Bool)
  | malloc (block : Option Nat)
  | free (block : Option Nat)
  /-- A byte stored at an offset of the framebuffer memory. -/
  | store (offset : Nat)
  deriving DecidableEq, Repr

/-- The static variables, and what the kernel holds. -/
structure Gr where
  font : Option GRFont
  /-- `gr_framebuffer[0]` and `gr_framebuffer[1]`, which point to offsets. -/
  framebuffer : GGLSurface Nat × GGLSurface Nat
  /-- `gr_mem_surface`, which points to a block or is `NULL`. -/
  memSurface : GGLSurface (Option Nat)
  activeFb : UInt32
  doubleBuffering : Bool
  fbFd : Int
  vtFd : Int
  vi : FbVarScreeninfo
  fi : FbFixScreeninfo
  /-- What is drawn on `gr_mem_surface`, byte by byte. -/
  drawn : Nat → UInt8
  /-- The framebuffer memory. -/
  mem : Nat → UInt8
  /-- The line of the framebuffer that the display begins at. -/
  shownLine : UInt32
  nextFd : Nat
  openFds : List Int
  nextBlock : Nat
  live : List Nat

/-- Code of the recovery. -/
abbrev GrM (α : Type) := Prog Gr GrEvent α

/-- An assignment to static variables. -/
def assign (f : Gr → Gr) : GrM Unit := act .assign f

@[simp] theorem exec_assign (f : Gr → Gr) (s : Gr) : (assign f).exec s = f s := (rfl)

@[simp] theorem emits_assign {P : GrEvent → Gr → Prop} (f : Gr → Gr) (s : Gr) :
    (assign f).Emits P s ↔ P .assign (f s) :=
  emits_act _ f s

/-! ## §2 Calls into the Kernel and the C Library -/

/-- `open`: descriptors are numbered in the order of their opening. -/
def openFile (path : String) (ok : Bool) : GrM Int := do
  let s ← read
  if ok then
    act (.openFile path s.nextFd) fun s =>
      { s with nextFd := s.nextFd + 1, openFds := (s.nextFd : Int) :: s.openFds }
    return s.nextFd
  else
    act (.openFile path (-1)) id
    return -1

/-- `close`; a number that is no open descriptor is refused. -/
def closeFile (fd : Int) : GrM Unit :=
  act (.close fd) fun s => { s with openFds := s.openFds.erase fd }

/-- `malloc` -/
def malloc (ok : Bool) : GrM (Option Nat) := do
  let s ← read
  if ok then
    act (.malloc (some s.nextBlock)) fun s =>
      { s with nextBlock := s.nextBlock + 1, live := s.nextBlock :: s.live }
    return some s.nextBlock
  else
    act (.malloc none) id
    return none

/-- `free` -/
def free (block : Option Nat) : GrM Unit :=
  act (.free block) fun s => { s with live := block.elim s.live s.live.erase }

/-- The bytes `[k, k + n)` of a `memcpy` to an offset of the framebuffer memory, one by one. -/
def copyBytes (dst : Nat) (src : Nat → UInt8) : Nat → Nat → GrM Unit
  | _, 0 => pure ()
  | k, n + 1 => do
    act (.store (dst + k)) fun s => { s with mem := Function.update s.mem (dst + k) (src k) }
    copyBytes dst src (k + 1) n

/-- `memcpy` to an offset of the framebuffer memory. -/
def memcpy (dst : Nat) (src : Nat → UInt8) (n : UInt32) : GrM Unit := copyBytes dst src 0 n.toNat

/-- `memset` of the framebuffer memory. -/
def memset (dst : Nat) (value : UInt8) (n : UInt32) : GrM Unit := memcpy dst (fun _ => value) n

/-! ## §3 The Framebuffer -/

/-- What the calls of `gr_init` return. -/
structure InitOutcome where
  /-- `open("/dev/tty0")` -/
  vt : Bool
  /-- `KDSETMODE` -/
  graphicsMode : Bool
  /-- `open("/dev/graphics/fb6")` -/
  fb : Bool
  /-- `FBIOGET_VSCREENINFO` -/
  getVar : Option FbVarScreeninfo
  /-- The first `FBIOPUT_VSCREENINFO`, with the mode that the driver makes of the one asked for. -/
  putVar : Option FbVarScreeninfo
  /-- `FBIOGET_FSCREENINFO` -/
  getFix : Option FbFixScreeninfo
  mmap : Bool
  /-- `malloc` of the memory surface. -/
  surface : Bool
  /-- The `FBIOPUT_VSCREENINFO` of `set_active_framebuffer`. -/
  pan : Bool

/-- The members that `get_framebuffer` sets for a pixel format. -/
def FbVarScreeninfo.withFormat (vi : FbVarScreeninfo) (format : PixelFormat) : FbVarScreeninfo :=
  let vi := { vi with bitsPerPixel := format.size * 8 }
  match format with
  | .bgra8888 =>
    { vi with red := ⟨8, 8⟩, green := ⟨16, 8⟩, blue := ⟨24, 8⟩, transp := ⟨0, 8⟩ }
  | .rgbx8888 =>
    { vi with red := ⟨24, 8⟩, green := ⟨16, 8⟩, blue := ⟨8, 8⟩, transp := ⟨0, 8⟩ }
  | .rgb565 =>
    { vi with red := ⟨11, 5⟩, green := ⟨5, 6⟩, blue := ⟨0, 5⟩, transp := ⟨0, 0⟩ }

/-- `vi.yres * fi.line_length`, in 32 bits. -/
def Gr.frameSize (s : Gr) : UInt32 := s.vi.yres * s.fi.lineLength

/-- A surface as large as the screen. -/
def Gr.surfaceOf {δ : Type} (s : Gr) (format : PixelFormat) (data : δ) : GGLSurface δ where
  width := s.vi.xres
  height := s.vi.yres
  stride := s.fi.lineLength / format.size
  data := data

/-- The `FBIOPUT_VSCREENINFO` of `set_active_framebuffer`: a driver that takes the mode, takes it as
it is and shows the lines from `yoffset` on. -/
def putVscreeninfo (fd : Int) (ok : Bool) : GrM Unit :=
  act (.ioctl fd .putVscreeninfo ok) fun s =>
    if ok then { s with shownLine := s.vi.yoffset } else s

/-- `get_framebuffer`, from the mapping on. -/
def mapFramebuffer (format : PixelFormat) (fd : Int) : GrM Int := do
  let s ← read
  assign fun s => { s with framebuffer := (s.surfaceOf format 0, s.framebuffer.2) }
  memset 0 0 s.frameSize
  -- check if we can use double buffering
  if s.frameSize * 2 > s.fi.smemLen then
    return fd
  assign fun s => { s with doubleBuffering := true }
  assign fun s =>
    { s with framebuffer := (s.framebuffer.1, s.surfaceOf format s.frameSize.toNat) }
  memset s.frameSize.toNat 0 s.frameSize
  return fd

/-- `get_framebuffer` -/
def getFramebuffer (format : PixelFormat) (out : InitOutcome) : GrM Int := do
  let fd ← openFile "/dev/graphics/fb6" out.fb
  if fd < 0 then
    return -1
  act (.ioctl fd .getVscreeninfo out.getVar.isSome) fun s => { s with vi := out.getVar.getD s.vi }
  if out.getVar.isNone then
    closeFile fd
    return -1
  assign fun s => { s with vi := s.vi.withFormat format }
  act (.ioctl fd .putVscreeninfo out.putVar.isSome) fun s =>
    { s with vi := out.putVar.getD s.vi, shownLine := (out.putVar.map (·.yoffset)).getD s.shownLine }
  if out.putVar.isNone then
    closeFile fd
    return -1
  act (.ioctl fd .getFscreeninfo out.getFix.isSome) fun s => { s with fi := out.getFix.getD s.fi }
  if out.getFix.isNone then
    closeFile fd
    return -1
  act (.mmap out.mmap) id
  if out.mmap = false then
    closeFile fd
    return -1
  mapFramebuffer format fd

/-- `get_memory_surface`; a failure of `malloc` is not looked at. -/
def getMemorySurface (format : PixelFormat) (ok : Bool) : GrM Unit := do
  let block ← malloc ok
  assign fun s => { s with memSurface := s.surfaceOf format block }

/-- `set_active_framebuffer`; a failure is only logged. -/
def setActiveFramebuffer (format : PixelFormat) (n : UInt32) (ok : Bool) : GrM Unit := do
  let s ← read
  if n > 1 ∨ s.doubleBuffering = false then
    return
  assign fun s => { s with vi.yresVirtual := s.vi.yres * 2 }
  assign fun s => { s with vi.yoffset := n * s.vi.yres }
  assign fun s => { s with vi.bitsPerPixel := format.size * 8 }
  putVscreeninfo s.fbFd ok

/-- The offset `gr_framebuffer[n].data` points to. -/
def Gr.frameOffset (s : Gr) (n : UInt32) : Nat :=
  if n = 0 then s.framebuffer.1.data else s.framebuffer.2.data

/-- `gr_flip` -/
def grFlip (format : PixelFormat) (ok : Bool) : GrM Unit := do
  let s ← read
  when s.doubleBuffering do
    assign fun s => { s with activeFb := (s.activeFb + 1) &&& 1 }
  let s ← read
  memcpy (s.frameOffset s.activeFb) s.drawn (s.fi.lineLength * s.vi.yres)
  setActiveFramebuffer format s.activeFb ok

/-- `gr_fb_blank`; a failure is only logged. -/
def grFbBlank (blank ok : Bool) : GrM Unit := do
  let s ← read
  act (.ioctl s.fbFd (.blank blank) ok) id

/-! ## §4 The Font -/

/-- The runs of `font.rundata`: the high bit of a byte is the value, the others are the length, and
a zero ends the data.  Without a zero the loop runs off the end of the array. -/
def decodeRuns : List UInt8 → Option (List UInt8)
  | [] => none
  | data :: rest =>
    if data = 0 then some []
    else
      (decodeRuns rest).map fun bits =>
        List.replicate (data &&& 0x7f).toNat (if data &&& 0x80 ≠ 0 then 255 else 0) ++ bits

/-- The `GRFont` of a font with these bits. -/
def Font.load (font : Font) (bits : List UInt8) : GRFont where
  texture := ⟨font.width, font.height, font.width, bits⟩
  cwidth := font.cwidth
  cheight := font.cheight
  ascent := font.cheight - 2

/-- `gr_init_font`, for data that ends. -/
def grInitFont (font : Font) : GrM Unit := do
  let _ ← malloc true
  let _ ← malloc true
  assign fun s => { s with font := some (font.load ((decodeRuns font.rundata).getD [])) }

/-! ## §5 Start and End -/

/-- `gr_exit` -/
def grExit : GrM Unit := do
  let s ← read
  closeFile s.fbFd
  assign fun s => { s with fbFd := -1 }
  free s.memSurface.data
  act (.ioctl s.vtFd (.kdSetMode false) true) id
  closeFile s.vtFd
  assign fun s => { s with vtFd := -1 }

/-- `gr_init`, from the memory surface on. -/
def startScreen (format : PixelFormat) (out : InitOutcome) : GrM Int := do
  getMemorySurface format out.surface
  assign fun s => { s with activeFb := 0 }
  setActiveFramebuffer format 0 out.pan
  grFbBlank true true
  grFbBlank false true
  return 0

/-- `gr_init`, from the framebuffer on. -/
def openScreen (format : PixelFormat) (out : InitOutcome) : GrM Int := do
  let fb ← getFramebuffer format out
  assign fun s => { s with fbFd := fb }
  if fb < 0 then
    grExit
    return -1
  startScreen format out

/-- `gr_init` -/
def grInit (format : PixelFormat) (font : Font) (out : InitOutcome) : GrM Int := do
  grInitFont font
  let vt ← openFile "/dev/tty0" out.vt
  assign fun s => { s with vtFd := vt }
  if 0 ≤ vt ∧ out.graphicsMode = false then
    act (.ioctl vt (.kdSetMode true) false) id
    grExit
    return -1
  when (0 ≤ vt) do
    act (.ioctl vt (.kdSetMode true) true) id
  openScreen format out

end OdroidU2.Recovery
