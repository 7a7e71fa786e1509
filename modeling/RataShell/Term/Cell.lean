/-!
# Cells

A cell of the alacritty grid and the flat `HostCell` that the host gets of it.

* `convertCell`: the cell as the host sees it, without its hyperlink.
* `hashUri`: the id under which the URI of a hyperlink is registered.
-/

namespace RataShell.Term

/-! ## Cells of the grid -/

/-- `alacritty_terminal::vte::ansi::NamedColor`. -/
inductive NamedColor where
  | Black | Red | Green | Yellow | Blue | Magenta | Cyan | White
  | BrightBlack | BrightRed | BrightGreen | BrightYellow
  | BrightBlue | BrightMagenta | BrightCyan | BrightWhite
  | Foreground | Background | Cursor
  | DimBlack | DimRed | DimGreen | DimYellow | DimBlue | DimMagenta | DimCyan | DimWhite
  | BrightForeground | DimForeground
deriving DecidableEq, Repr

/-- `alacritty_terminal::vte::ansi::Color`. -/
inductive Color where
  | Spec (r g b : UInt8)
  | Indexed (i : UInt8)
  | Named (n : NamedColor)
deriving DecidableEq, Repr

/-- The flags of a cell that `convert_cell` reads. -/
structure Flags where
  bold : Bool
  dim : Bool
  italic : Bool
  underline : Bool
  inverse : Bool
  hidden : Bool
  strikeout : Bool
  wideChar : Bool
  wideCharSpacer : Bool
deriving DecidableEq, Repr

/-- `alacritty_terminal::term::cell::Cell`; of the hyperlink only the URI. -/
structure Cell where
  c : Char
  fg : Color
  bg : Color
  flags : Flags
  hyperlink : Option String
deriving DecidableEq, Repr

/-! ## Cells of the host -/

/-- `term.rs`, `HostCell`. -/
structure HostCell where
  ch : UInt32
  fg : UInt32
  bg : UInt32
  attrs : UInt16
  width : UInt8
  hyperlinkId : UInt32
deriving DecidableEq, Repr

def ATTR_BOLD : UInt16 := 0x0001
def ATTR_DIM : UInt16 := 0x0002
def ATTR_ITALIC : UInt16 := 0x0004
def ATTR_UNDERLINE : UInt16 := 0x0008
def ATTR_REVERSE : UInt16 := 0x0020
def ATTR_HIDDEN : UInt16 := 0x0040
def ATTR_STRIKE : UInt16 := 0x0080

def DEFAULT_FLAG : UInt32 := 0x80000000

/-- `named_color`. -/
def namedColor (n : NamedColor) (isFg : Bool) : UInt32 :=
  match n with
  | .Foreground | .BrightForeground | .DimForeground => DEFAULT_FLAG ||| 0xCCCCCC
  | .Background => DEFAULT_FLAG ||| 0x000000
  | .Cursor => DEFAULT_FLAG ||| (if isFg then 0xCCCCCC else 0x000000)
  | .Black | .DimBlack => 0x000000
  | .Red | .DimRed => 0xCD0000
  | .Green | .DimGreen => 0x00CD00
  | .Yellow | .DimYellow => 0xCDCD00
  | .Blue | .DimBlue => 0x0000EE
  | .Magenta | .DimMagenta => 0xCD00CD
  | .Cyan | .DimCyan => 0x00CDCD
  | .White | .DimWhite => 0xE5E5E5
  | .BrightBlack => 0x7F7F7F
  | .BrightRed => 0xFF0000
  | .BrightGreen => 0x00FF00
  | .BrightYellow => 0xFFFF00
  | .BrightBlue => 0x5C5CFF
  | .BrightMagenta => 0xFF00FF
  | .BrightCyan => 0x00FFFF
  | .BrightWhite => 0xFFFFFF

/-- The 16 colours of `xterm256`. -/
def xtermTable : List UInt32 :=
  [0x000000, 0xCD0000, 0x00CD00, 0xCDCD00, 0x0000EE, 0xCD00CD, 0x00CDCD,
   0xE5E5E5, 0x7F7F7F, 0xFF0000, 0x00FF00, 0xFFFF00, 0x5C5CFF, 0xFF00FF,
   0x00FFFF, 0xFFFFFF]

/-- One channel of the colour cube. -/
def cubeLevel (v : UInt32) : UInt32 := if v = 0 then 0 else 55 + v * 40

/-- `xterm256`. -/
def xterm256 (idx : UInt8) : UInt32 :=
  if idx < 16 then xtermTable.getD idx.toNat 0
  else if idx < 232 then
    let i := (idx - 16).toUInt32
    (cubeLevel (i / 36 % 6) <<< 16) ||| (cubeLevel (i / 6 % 6) <<< 8) ||| cubeLevel (i % 6)
  else
    let v := 8 + (idx - 232).toUInt32 * 10
    (v <<< 16) ||| (v <<< 8) ||| v

/-- `convert_color`. -/
def convertColor (c : Color) (isFg : Bool) : UInt32 :=
  match c with
  | .Spec r g b => (r.toUInt32 <<< 16) ||| (g.toUInt32 <<< 8) ||| b.toUInt32
  | .Indexed i => xterm256 i
  | .Named n => namedColor n isFg

/-- A flag's attribute bit, if it is set. -/
def attr (flag : Bool) (bit : UInt16) : UInt16 := if flag then bit else 0

/-- The attribute bits of `convert_cell`. -/
def attrBits (f : Flags) : UInt16 :=
  attr f.bold ATTR_BOLD ||| attr f.dim ATTR_DIM ||| attr f.italic ATTR_ITALIC |||
    attr f.underline ATTR_UNDERLINE ||| attr f.inverse ATTR_REVERSE |||
    attr f.hidden ATTR_HIDDEN ||| attr f.strikeout ATTR_STRIKE

/-- `convert_cell`. -/
def convertCell (c : Cell) : HostCell where
  ch := c.c.val
  fg := convertColor c.fg true
  bg := convertColor c.bg false
  attrs := attrBits c.flags
  width := if c.flags.wideChar then 2 else if c.flags.wideCharSpacer then 0 else 1
  hyperlinkId := 0

/-! ## Hyperlink ids -/

/-- The FNV-1a hash of bytes. -/
def fnv1a (bytes : List UInt8) : UInt32 :=
  bytes.foldl (fun h b => (h ^^^ b.toUInt32) * 0x01000193) 0x811C9DC5

/-- `hash_uri`. -/
def hashUri (uri : String) : UInt32 :=
  let h := fnv1a uri.toUTF8.toList
  if h = 0 then 1 else h

/-- The id 0 stands for no link. -/
theorem hashUri_ne_zero (uri : String) : hashUri uri ≠ 0 := by
  unfold hashUri
  simp only
  split
  · decide
  · assumption

end RataShell.Term
