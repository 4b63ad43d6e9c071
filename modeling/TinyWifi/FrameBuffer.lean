import TinyWifi.Lib.LastWrite

/-! The frame buffer of the e-paper display: a bit for every point, eight points to a byte. -/

namespace TinyWifi

open LastWrite

namespace FrameBuffer

/-- Native portrait dimensions. -/
def w : Nat := 128
def h : Nat := 250

def row : Nat := w / 8
def bufLen : Nat := row * h

inductive BinaryColor
  | off
  | on
  deriving DecidableEq, Repr

structure Pixel where
  x : Int32
  y : Int32
  color : BinaryColor
  deriving DecidableEq, Repr

structure Buf where
  bytes : Vector UInt8 bufLen
  deriving DecidableEq, Repr

/-- A change of one byte. An index outside the array is a panic, which is `none` here. -/
def Buf.modify (buf : Buf) (byte : Nat) (f : UInt8 → UInt8) : Option Buf :=
  if inside : byte < bufLen then some ⟨buf.bytes.set byte (f buf.bytes[byte])⟩ else none

def Pixel.offScreen (p : Pixel) : Bool :=
  p.x < 0 || p.y < 0 || Int32.ofNat w ≤ p.x || Int32.ofNat h ≤ p.y

def paint (color : BinaryColor) (bit : Nat) (byte : UInt8) : UInt8 :=
  if color = .on then byte &&& ~~~(1 <<< UInt8.ofNat bit) else byte ||| 1 <<< UInt8.ofNat bit

def drawPixel (buf : Buf) (p : Pixel) : Option Buf :=
  if p.offScreen then some buf
  else
    let x := p.x.toInt.toNat
    let y := p.y.toInt.toNat
    buf.modify (y * row + x / 8) (paint p.color (7 - x % 8))

def drawIter (buf : Buf) (pixels : List Pixel) : Option Buf := pixels.foldlM drawPixel buf

abbrev Point := Fin w × Fin h

theorem point_lt (point : Point) : point.1.val < 128 ∧ point.2.val < 250 :=
  ⟨point.1.isLt, point.2.isLt⟩

def byteOf (point : Point) : Fin bufLen where
  val := 16 * point.2 + point.1 / 8
  isLt := by
    have inside := point_lt point
    have total : bufLen = 4000 := rfl
    omega

def bitOf (point : Point) : Nat := 7 - point.1 % 8

def Buf.bit (buf : Buf) (point : Point) : Bool :=
  buf.bytes[byteOf point].toBitVec.getLsbD (bitOf point)

def Pixel.isAt (point : Point) (p : Pixel) : Bool :=
  p.x.toInt = point.1.val ∧ p.y.toInt = point.2.val

/-- The colour that a point is given last, if it is given one. -/
def lastColor (pixels : List Pixel) (point : Point) : Option BinaryColor :=
  ((pixels.filter (Pixel.isAt point)).getLast?).map Pixel.color

/-- Black is a 0 in the buffer. -/
def bitFor (before : Bool) : Option BinaryColor → Bool
  | some .on => false
  | some .off => true
  | none => before

section Bits

variable {bit : Nat}

theorem getLsbD_mask (small : bit < 8) (k : Nat) :
    (1 <<< UInt8.ofNat bit : UInt8).toBitVec.getLsbD k = decide (k = bit) := by
  have shift : bit % 8 = bit := Nat.mod_eq_of_lt small
  rw [Bool.eq_iff_iff]
  simp [UInt8.toBitVec_shiftLeft, shift]
  omega

theorem getLsbD_paint (small : bit < 8) {k : Nat} (within : k < 8) (color : BinaryColor)
    (byte : UInt8) : (paint color bit byte).toBitVec.getLsbD k =
      if k = bit then decide (color = .off) else byte.toBitVec.getLsbD k := by
  have mask := getLsbD_mask small k
  cases color with
  | on =>
      rw [paint, if_pos rfl, UInt8.toBitVec_and, UInt8.toBitVec_not, BitVec.getLsbD_and,
        BitVec.getLsbD_not, mask]
      by_cases same : k = bit <;> simp [same, within]
  | off =>
      rw [paint, if_neg nofun, UInt8.toBitVec_or, BitVec.getLsbD_or, mask]
      by_cases same : k = bit <;> simp [same]

theorem bitOf_lt (point : Point) : bitOf point < 8 := by
  unfold bitOf
  omega

theorem address_injective {a b : Point} (byte : byteOf a = byteOf b) (bit : bitOf a = bitOf b) :
    a = b := by
  have columns := (point_lt a).1
  have columns' := (point_lt b).1
  have bytes : 16 * a.2.val + a.1.val / 8 = 16 * b.2.val + b.1.val / 8 := congrArg Fin.val byte
  have bits : 7 - a.1.val % 8 = 7 - b.1.val % 8 := bit
  refine Prod.ext (Fin.ext ?_) (Fin.ext ?_)
  · omega
  · omega

end Bits

section Pixels

variable {p : Pixel} {point : Point}

theorem offScreen_eq_false (p : Pixel) : p.offScreen = false ↔
    (0 ≤ p.x.toInt ∧ p.x.toInt < 128) ∧ (0 ≤ p.y.toInt ∧ p.y.toInt < 250) := by
  have zero : (0 : Int32).toInt = 0 := rfl
  have right : (Int32.ofNat w).toInt = 128 := rfl
  have bottom : (Int32.ofNat h).toInt = 250 := rfl
  unfold Pixel.offScreen
  simp only [Bool.or_eq_false_iff, decide_eq_false_iff_not, Int32.lt_iff_toInt_lt,
    Int32.le_iff_toInt_le, zero, right, bottom]
  omega

theorem coordinates_lt (shown : p.offScreen = false) :
    p.x.toInt.toNat < w ∧ p.y.toInt.toNat < h := by
  have width : w = 128 := rfl
  have height : h = 250 := rfl
  have inside := (offScreen_eq_false p).mp shown
  omega

def pointOf (p : Pixel) : Option Point :=
  if shown : p.offScreen = false then
    some (⟨p.x.toInt.toNat, (coordinates_lt shown).1⟩, ⟨p.y.toInt.toNat, (coordinates_lt shown).2⟩)
  else none

theorem pointOf_of_offScreen (off : p.offScreen = true) : pointOf p = none := by
  unfold pointOf
  rw [dif_neg (by simp [off])]

theorem isAt_iff : p.isAt point = true ↔ p.x.toInt = point.1.val ∧ p.y.toInt = point.2.val :=
  decide_eq_true_iff

theorem pointOf_eq_some : pointOf p = some point ↔ p.isAt point = true := by
  have inside := point_lt point
  rw [isAt_iff]
  unfold pointOf
  constructor
  · intro found
    split at found
    · next shown =>
        have inside := (offScreen_eq_false p).mp shown
        cases found
        constructor <;> simp only <;> omega
    · cases found
  · rintro ⟨x, y⟩
    have shown : p.offScreen = false := (offScreen_eq_false p).mpr (by omega)
    rw [dif_pos shown]
    refine congrArg some (Prod.ext (Fin.ext ?_) (Fin.ext ?_))
    · simp [x]
    · simp [y]

end Pixels

section Draw

variable {p : Pixel} {point : Point} {pixels : List Pixel}

def Buf.set (buf : Buf) (point : Point) (color : BinaryColor) : Buf :=
  ⟨buf.bytes.set (byteOf point) (paint color (bitOf point) buf.bytes[byteOf point])⟩

theorem bit_set (buf : Buf) (point : Point) (color : BinaryColor) :
    (buf.set point color).bit = Function.update buf.bit point (decide (color = .off)) := by
  funext other
  unfold Buf.bit Buf.set
  by_cases byte : byteOf point = byteOf other
  · have read : (buf.bytes.set (byteOf point) (paint color (bitOf point) buf.bytes[byteOf point]))[
        byteOf other] = paint color (bitOf point) buf.bytes[byteOf other] := by
      simp [byte]
    rw [read, getLsbD_paint (bitOf_lt point) (bitOf_lt other)]
    by_cases bit : bitOf other = bitOf point
    · obtain rfl := address_injective byte bit.symm
      rw [if_pos rfl, Function.update_self]
    · have apart : other ≠ point := fun same => bit (congrArg bitOf same)
      rw [if_neg bit, Function.update_of_ne apart]
  · have apart : other ≠ point := fun same => byte (congrArg byteOf same.symm)
    have index : (byteOf point).val ≠ (byteOf other).val := fun same => byte (Fin.ext same)
    rw [Function.update_of_ne apart]
    simp [index]

theorem drawPixel_of_offScreen (buf : Buf) (off : p.offScreen = true) :
    drawPixel buf p = some buf := if_pos off

theorem drawPixel_of_isAt (buf : Buf) (there : p.isAt point = true) :
    drawPixel buf p = some (buf.set point p.color) := by
  have inside := point_lt point
  obtain ⟨x, y⟩ := isAt_iff.mp there
  have shown : p.offScreen = false := (offScreen_eq_false p).mpr (by omega)
  have address : p.y.toInt.toNat * row + p.x.toInt.toNat / 8 = (byteOf point).val := by
    have bytes : row = 16 := rfl
    rw [x, y, bytes]
    exact congrArg (· + point.1.val / 8) (Nat.mul_comm point.2.val 16)
  have bit : 7 - p.x.toInt.toNat % 8 = bitOf point := by
    rw [x]
    rfl
  unfold drawPixel
  rw [if_neg (by simp [shown])]
  simp only [address, bit]
  exact dif_pos (byteOf point).isLt

/-- No index of the loop is outside the buffer, and a step is a write to the point of the pixel. -/
theorem drawPixel_spec (buf : Buf) (p : Pixel) : ∃ after, drawPixel buf p = some after ∧
    after.bit = write pointOf (fun p => decide (p.color = .off)) buf.bit p := by
  cases off : p.offScreen with
  | true =>
      refine ⟨buf, drawPixel_of_offScreen buf off, ?_⟩
      rw [write, pointOf_of_offScreen off]
  | false =>
      obtain ⟨point, found⟩ : ∃ point, pointOf p = some point := ⟨_, dif_pos off⟩
      refine ⟨buf.set point p.color, drawPixel_of_isAt buf (pointOf_eq_some.mp found), ?_⟩
      rw [write, found, bit_set]

theorem drawIter_spec (buf : Buf) (pixels : List Pixel) :
    ∃ after, drawIter buf pixels = some after ∧
      after.bit = pixels.foldl (write pointOf fun p => decide (p.color = .off)) buf.bit := by
  induction pixels generalizing buf with
  | nil => exact ⟨buf, rfl, rfl⟩
  | cons p rest ih =>
      obtain ⟨middle, first, bits⟩ := drawPixel_spec buf p
      obtain ⟨after, later, drawn⟩ := ih middle
      refine ⟨after, ?_, ?_⟩
      · rw [drawIter, List.foldlM_cons, first]
        exact later
      · rw [List.foldl_cons, ← bits, drawn]

theorem last_eq (before : Bool) (pixels : List Pixel) (point : Point) :
    (last pointOf (fun p => decide (p.color = .off)) pixels point).getD before =
      bitFor before (lastColor pixels point) := by
  have same : (fun p => decide (pointOf p = some point)) = Pixel.isAt point := by
    funext p
    exact Bool.eq_iff_iff.mpr (decide_eq_true_iff.trans pointOf_eq_some)
  rw [last, lastColor, same]
  cases (pixels.filter (Pixel.isAt point)).getLast? with
  | none => rfl
  | some p => cases color : p.color <;> simp [bitFor, color]

theorem drawIter_filter (buf : Buf) (pixels : List Pixel) :
    drawIter buf (pixels.filter fun p => !p.offScreen) = drawIter buf pixels := by
  induction pixels generalizing buf with
  | nil => rfl
  | cons p rest ih =>
      cases off : p.offScreen with
      | true =>
          rw [List.filter_cons_of_neg (by simp [off]), ih buf, drawIter, drawIter,
            List.foldlM_cons, drawPixel_of_offScreen buf off]
          rfl
      | false =>
          rw [List.filter_cons_of_pos (by simp [off]), drawIter, drawIter, List.foldlM_cons,
            List.foldlM_cons]
          exact congrArg (drawPixel buf p >>= ·) (funext ih)

/-- Any pixels can be drawn; then a point shows the last of them at its place, and what it showed
before if there is none. -/
theorem drawIter_faithful (buf : Buf) (pixels : List Pixel) :
    ∃ after, drawIter buf pixels = some after ∧
      (∀ point, after.bit point = bitFor (buf.bit point) (lastColor pixels point)) ∧
      drawIter buf (pixels.filter fun p => !p.offScreen) = some after := by
  obtain ⟨after, drawn, bits⟩ := drawIter_spec buf pixels
  refine ⟨after, drawn, fun point => ?_, (drawIter_filter buf pixels).trans drawn⟩
  rw [bits, foldl_write, last_eq]

end Draw

end FrameBuffer

end TinyWifi
