import Mathlib.Data.UInt
import RataShell.Lib.Records

/-!
# The copy of a render event

`StoreRenderEvent` puts an event with its cells and its rectangles into one buffer,
and sets the pointers of the copy into it; `ConsumePendingEvent` sets them again, for
the buffer it got. The sizes and offsets are those of 64-bit code.

* `Call.buffer_bytes`: the three parts of the buffer.
* `Call.received_whole`: what is read back through the pointers.
* `Call.handleRenderMessage_describes`: what the control keeps of it.
-/

namespace RataShell.Control.RenderEvents

open Records (Codec)

/-! ## Records -/

/-- `TRataRect`. -/
structure RataRect where
  x : UInt16
  y : UInt16
  w : UInt16
  h : UInt16
deriving DecidableEq, Repr

/-- `TRataCell`. -/
structure RataCell where
  ch : UInt32
  fg : UInt32
  bg : UInt32
  attrs : UInt16
  width : UInt8
  pad : UInt8
  hyperlinkId : UInt32
deriving DecidableEq, Repr

/-- `TRataRenderEvent`; the pointers are addresses. -/
structure RataRenderEvent where
  cols : UInt16
  rows : UInt16
  cursorX : UInt16
  cursorY : UInt16
  cursorVisible : UInt8
  cursorStyle : UInt8
  altActive : UInt8
  pad : UInt8
  dirtyRects : UInt64
  dirtyCount : UInt64
  cells : UInt64
  cellsLen : UInt64
  modeFlags : UInt32
  pad2 : UInt32
deriving DecidableEq, Repr

open Records.Codec

def rectCodec : Codec RataRect :=
  map (pair u16 (pair u16 (pair u16 u16))) (fun (x, y, w, h) => ⟨x, y, w, h⟩)
    (fun r => (r.x, r.y, r.w, r.h)) fun _ => rfl

def cellCodec : Codec RataCell :=
  map (pair u32 (pair u32 (pair u32 (pair u16 (pair u8 (pair u8 u32))))))
    (fun (ch, fg, bg, attrs, width, pad, link) => ⟨ch, fg, bg, attrs, width, pad, link⟩)
    (fun c => (c.ch, c.fg, c.bg, c.attrs, c.width, c.pad, c.hyperlinkId)) fun _ => rfl

/-- Four bytes before the first pointer align it. -/
def eventCodec : Codec RataRenderEvent :=
  map
    (pair (pair u16 (pair u16 (pair u16 u16)))
      (pair (pair u8 (pair u8 (pair u8 u8)))
        (pair (pad 4) (pair (pair u64 (pair u64 (pair u64 u64))) (pair u32 u32)))))
    (fun ((cols, rows, x, y), (visible, style, alt, pad), _, (rects, count, cells, len), flags,
        pad2) =>
      ⟨cols, rows, x, y, visible, style, alt, pad, rects, count, cells, len, flags, pad2⟩)
    (fun e =>
      ((e.cols, e.rows, e.cursorX, e.cursorY),
        (e.cursorVisible, e.cursorStyle, e.altActive, e.pad), (),
        (e.dirtyRects, e.dirtyCount, e.cells, e.cellsLen), e.modeFlags, e.pad2))
    fun _ => rfl

@[simp] theorem rectCodec_size : rectCodec.size = 8 := rfl

@[simp] theorem cellCodec_size : cellCodec.size = 20 := rfl

@[simp] theorem eventCodec_size : eventCodec.size = 56 := rfl

/-! ## `StoreRenderEvent` -/

/-- A `TBytes`: where its bytes are, and what they are; `nil` has neither. -/
structure Bytes where
  addr : UInt64
  bytes : List UInt8
deriving DecidableEq, Repr

def Bytes.nil : Bytes := ⟨0, []⟩

/-- A call of `StoreRenderEvent`: the event, what its pointers point at, and the
`LDest` that `SetLength` gives; the buffer fits below the end of memory. -/
structure Call where
  event : RataRenderEvent
  cells : List RataCell
  dirtyRects : List RataRect
  dest : UInt64
  cellsLen : event.cellsLen.toNat = cells.length
  dirtyCount : event.dirtyCount.toNat = dirtyRects.length
  fits : dest.toNat + (56 + cells.length * 20 + dirtyRects.length * 8) < 2 ^ 64
deriving DecidableEq

namespace Call

/-- `LCellsBytes`. -/
def cellsBytes (c : Call) : Nat := c.event.cellsLen.toNat * cellCodec.size

/-- `LRectsBytes`. -/
def rectsBytes (c : Call) : Nat := c.event.dirtyCount.toNat * rectCodec.size

/-- `LTotal`. -/
def total (c : Call) : Nat := eventCodec.size + c.cellsBytes + c.rectsBytes

/-- `LEvCopy`. -/
def evCopy (c : Call) : RataRenderEvent :=
  { c.event with
    cells := c.dest + .ofNat eventCodec.size
    dirtyRects := c.dest + .ofNat (eventCodec.size + c.cellsBytes) }

/-- `Move` of `n` bytes, when there are any. -/
def move (n off : Nat) (bytes buf : List UInt8) : List UInt8 :=
  if 0 < n then Records.write off bytes buf else buf

/-- `LBuf` with the cells and the rectangles. -/
def copied (c : Call) : List UInt8 :=
  move c.rectsBytes (eventCodec.size + c.cellsBytes) (rectCodec.encodeAll c.dirtyRects)
    (move c.cellsBytes eventCodec.size (cellCodec.encodeAll c.cells) (List.replicate c.total 0))

/-- `LBuf`. -/
def buffer (c : Call) : Bytes := ⟨c.dest, Records.write 0 (eventCodec.encode c.evCopy) c.copied⟩

end Call

/-! ## `ConsumePendingEvent` and `HandleRenderMessage` -/

/-- `FPendingEvent^`, where that points to the first byte of a buffer. -/
def Bytes.event (b : Bytes) : RataRenderEvent := eventCodec.readAt b.bytes 0

/-- `LEvent` and `LBuf`. -/
structure Received where
  event : RataRenderEvent
  buf : Bytes
deriving DecidableEq, Repr

/-- The event, with its pointers set for the buffer. -/
def receive (e : RataRenderEvent) (buf : Bytes) : Received where
  event := { e with
    cells := buf.addr + .ofNat eventCodec.size
    dirtyRects := buf.addr + .ofNat (eventCodec.size + e.cellsLen.toNat * cellCodec.size) }
  buf := buf

namespace Received

/-- `LEvent.Cells^`, the `CellsLen` cells of it. -/
def cells (r : Received) : List RataCell :=
  cellCodec.readArray r.buf.bytes (r.event.cells - r.buf.addr).toNat r.event.cellsLen.toNat

/-- `LEvent.DirtyRects^`, the `DirtyCount` rectangles of it. -/
def dirtyRects (r : Received) : List RataRect :=
  rectCodec.readArray r.buf.bytes (r.event.dirtyRects - r.buf.addr).toNat
    r.event.dirtyCount.toNat

end Received

/-- What `HandleRenderMessage` keeps of an event. -/
structure Last where
  cursorStyle : UInt8
  cursorX : Int
  cursorY : Int
  cols : Int
  rows : Int
  cells : List RataCell
deriving DecidableEq, Repr

/-- `HandleRenderMessage`, after `ConsumePendingEvent`. -/
def handleRenderMessage (r : Received) (last : Last) : Last where
  cursorStyle :=
    if r.event.cursorStyle ≠ last.cursorStyle then r.event.cursorStyle else last.cursorStyle
  cursorX := r.event.cursorX.toNat
  cursorY := r.event.cursorY.toNat
  cols := r.event.cols.toNat
  rows := r.event.rows.toNat
  cells := if r.event.cells ≠ 0 ∧ 0 < r.event.cellsLen then r.cells else []

/-- The event is that of the call, complete: all its fields but the two pointers, and
the cells and the rectangles, which the pointers find inside the buffer. -/
structure Whole (c : Call) (r : Received) : Prop where
  event : r.event =
    { c.event with cells := r.event.cells, dirtyRects := r.event.dirtyRects }
  cells : r.cells = c.cells
  dirtyRects : r.dirtyRects = c.dirtyRects
  cells_inside :
    (r.event.cells - r.buf.addr).toNat + c.cells.length * 20 ≤ r.buf.bytes.length
  rects_inside :
    (r.event.dirtyRects - r.buf.addr).toNat + c.dirtyRects.length * 8 ≤ r.buf.bytes.length

/-- The control has kept what the event of the call says. -/
structure Describes (c : Call) (last : Last) : Prop where
  cursorStyle : last.cursorStyle = c.event.cursorStyle
  cursorX : last.cursorX = c.event.cursorX.toNat
  cursorY : last.cursorY = c.event.cursorY.toNat
  cols : last.cols = c.event.cols.toNat
  rows : last.rows = c.event.rows.toNat
  cells : last.cells = c.cells

/-! ## The round trip -/

namespace Call

variable (c : Call)

theorem cellsBytes_eq : c.cellsBytes = c.cells.length * 20 := by
  rw [cellsBytes, c.cellsLen, cellCodec_size]

theorem rectsBytes_eq : c.rectsBytes = c.dirtyRects.length * 8 := by
  rw [rectsBytes, c.dirtyCount, rectCodec_size]

theorem length_cells : (cellCodec.encodeAll c.cells).length = c.cellsBytes := by
  rw [length_encodeAll, cellsBytes, c.cellsLen]

theorem length_rects : (rectCodec.encodeAll c.dirtyRects).length = c.rectsBytes := by
  rw [length_encodeAll, rectsBytes, c.dirtyCount]

/-- A move that is skipped would write nothing. -/
theorem move_eq {n off : Nat} {bytes buf : List UInt8} (hlen : bytes.length = n) :
    move n off bytes buf = Records.write off bytes buf := by
  unfold move
  split
  · rfl
  · have hnil : bytes = [] := List.eq_nil_of_length_eq_zero (by omega)
    rw [hnil, Records.write_nil]

theorem copied_eq : c.copied =
    List.replicate eventCodec.size 0 ++
      (cellCodec.encodeAll c.cells ++ rectCodec.encodeAll c.dirtyRects) := by
  have hzero : List.replicate c.total (0 : UInt8) =
      List.replicate eventCodec.size 0 ++
        (List.replicate c.cellsBytes 0 ++ List.replicate c.rectsBytes 0) := by
    rw [total, List.replicate_append_replicate, List.replicate_append_replicate, Nat.add_assoc]
  have hcells : Records.write eventCodec.size (cellCodec.encodeAll c.cells)
        (List.replicate c.total 0) =
      List.replicate eventCodec.size 0 ++
        (cellCodec.encodeAll c.cells ++ List.replicate c.rectsBytes 0) := by
    rw [hzero]
    exact Records.write_append _ _ _ _ (by simp) (by rw [List.length_replicate, c.length_cells])
  have hoff : eventCodec.size + c.cellsBytes =
      (List.replicate eventCodec.size 0 ++ cellCodec.encodeAll c.cells).length := by
    rw [List.length_append, List.length_replicate, c.length_cells]
  have hrects := Records.write_append _ (List.replicate c.rectsBytes 0) []
    (rectCodec.encodeAll c.dirtyRects) hoff (by rw [List.length_replicate, c.length_rects])
  simp only [List.append_nil, List.append_assoc] at hrects
  rw [copied, move_eq c.length_rects, move_eq c.length_cells, hcells, hrects]

/-- The header, the cells and the rectangles, one behind the other. -/
theorem buffer_bytes : c.buffer.bytes =
    eventCodec.encode c.evCopy ++
      (cellCodec.encodeAll c.cells ++ rectCodec.encodeAll c.dirtyRects) := by
  have hwrite := Records.write_append [] (List.replicate eventCodec.size 0)
    (cellCodec.encodeAll c.cells ++ rectCodec.encodeAll c.dirtyRects)
    (eventCodec.encode c.evCopy) rfl (by simp)
  rw [buffer, copied_eq]
  exact hwrite

/-- `FPendingEvent^` is the header that was written. -/
theorem buffer_event : c.buffer.event = c.evCopy := by
  have hread := eventCodec.readAt_append []
    (cellCodec.encodeAll c.cells ++ rectCodec.encodeAll c.dirtyRects) c.evCopy rfl
  rw [Bytes.event, buffer_bytes]
  exact hread

/-- An offset into the buffer comes back from its address. -/
theorem offset {k : Nat} (hk : k ≤ c.total) :
    (c.dest + UInt64.ofNat k - c.dest).toNat = k := by
  have hcancel : c.dest + UInt64.ofNat k - c.dest = UInt64.ofNat k := by
    rw [UInt64.add_comm, UInt64.add_sub_cancel]
  have hfits := c.fits
  have htotal : c.total = 56 + c.cells.length * 20 + c.dirtyRects.length * 8 := by
    rw [total, cellsBytes_eq, rectsBytes_eq, eventCodec_size]
  rw [hcancel, UInt64.toNat_ofNat']
  exact Nat.mod_eq_of_lt (by omega)

/-- What `ConsumePendingEvent` makes of the buffer of a call. -/
def received : Received := receive c.buffer.event c.buffer

theorem received_cells_off :
    (c.received.event.cells - c.received.buf.addr).toNat = eventCodec.size :=
  c.offset (by rw [total]; omega)

theorem received_rects_off :
    (c.received.event.dirtyRects - c.received.buf.addr).toNat =
      eventCodec.size + c.cellsBytes := by
  have hlen : c.buffer.event.cellsLen = c.event.cellsLen := by
    rw [buffer_event]
    rfl
  have hoff := c.offset (k := eventCodec.size + c.cellsBytes) (by rw [total]; omega)
  simp only [received, receive, hlen]
  exact hoff

/-- The event of a call comes whole through its buffer. -/
theorem received_whole : Whole c c.received := by
  have hevent : c.received.event =
      { c.event with
        cells := c.received.event.cells, dirtyRects := c.received.event.dirtyRects } := by
    simp only [received, receive, buffer_event]
    rfl
  -- the buffer is the event, its cells and its rectangles, one behind the other
  have hbytes : c.received.buf.bytes =
      eventCodec.encode c.evCopy ++
        (cellCodec.encodeAll c.cells ++ rectCodec.encodeAll c.dirtyRects) := c.buffer_bytes
  have hcellsLen : c.received.event.cellsLen.toNat = c.cells.length := by
    rw [hevent]
    exact c.cellsLen
  have hcount : c.received.event.dirtyCount.toNat = c.dirtyRects.length := by
    rw [hevent]
    exact c.dirtyCount
  have hlength : c.received.buf.bytes.length =
      56 + c.cells.length * 20 + c.dirtyRects.length * 8 := by
    rw [hbytes]
    simp
    omega
  refine ⟨hevent, ?_, ?_, ?_, ?_⟩
  · rw [Received.cells, hbytes, c.received_cells_off, hcellsLen]
    exact cellCodec.readArray_append _ _ c.cells (by simp)
  · have hoff : eventCodec.size + c.cellsBytes =
        (eventCodec.encode c.evCopy ++ cellCodec.encodeAll c.cells).length := by
      simp [cellsBytes_eq]
    have hread := rectCodec.readArray_append _ [] c.dirtyRects hoff
    rw [Received.dirtyRects, hbytes, c.received_rects_off, hcount]
    simpa using hread
  · rw [c.received_cells_off, hlength, eventCodec_size]
    omega
  · rw [c.received_rects_off, hlength, cellsBytes_eq, eventCodec_size]

theorem received_cells_ne : c.received.event.cells ≠ 0 := by
  intro hzero
  have hfits := c.fits
  have hto : (c.dest + UInt64.ofNat 56).toNat = 0 := congrArg UInt64.toNat hzero
  rw [UInt64.toNat_add, UInt64.toNat_ofNat', Nat.mod_eq_of_lt (by omega)] at hto
  omega

end Call

/-- Whatever it has kept before, the control keeps what a whole event says. -/
theorem Whole.describes {c : Call} {r : Received} (hwhole : Whole c r)
    (hcells : r.event.cells ≠ 0) (last : Last) : Describes c (handleRenderMessage r last) := by
  have hevent := hwhole.event
  have hstyle : r.event.cursorStyle = c.event.cursorStyle := by rw [hevent]
  have hlen : r.event.cellsLen = c.event.cellsLen := by rw [hevent]
  have hcols : r.event.cols = c.event.cols := by rw [hevent]
  have hrows : r.event.rows = c.event.rows := by rw [hevent]
  have hx : r.event.cursorX = c.event.cursorX := by rw [hevent]
  have hy : r.event.cursorY = c.event.cursorY := by rw [hevent]
  have hkept : (handleRenderMessage r last).cursorStyle = r.event.cursorStyle :=
    ite_eq_left_iff.2 fun hsame => (not_not.1 hsame).symm
  have hcells : (handleRenderMessage r last).cells = c.cells := by
    change (if r.event.cells ≠ 0 ∧ 0 < r.event.cellsLen then r.cells else []) = c.cells
    split
    · exact hwhole.cells
    · -- no cells are kept where none were stored
      rename_i hempty
      have hnone : ¬ 0 < r.event.cellsLen := fun h => hempty ⟨hcells, h⟩
      rw [hlen, UInt64.lt_iff_toNat_lt, c.cellsLen] at hnone
      exact (List.eq_nil_of_length_eq_zero (Nat.eq_zero_of_not_pos hnone)).symm
  refine ⟨hkept.trans hstyle, ?_, ?_, ?_, ?_, hcells⟩
  · rw [handleRenderMessage, hx]
  · rw [handleRenderMessage, hy]
  · rw [handleRenderMessage, hcols]
  · rw [handleRenderMessage, hrows]

/-- The control keeps what the event of a call says. -/
theorem Call.handleRenderMessage_describes (c : Call) (last : Last) :
    Describes c (handleRenderMessage c.received last) :=
  c.received_whole.describes c.received_cells_ne last

end RataShell.Control.RenderEvents
