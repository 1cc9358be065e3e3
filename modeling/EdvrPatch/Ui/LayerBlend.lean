import EdvrPatch.Lib.Affine

/-! The blends of the UI layer, of `ui_layer_math.h`: which of the game's blends can be drawn into a
layer, and how, and the CPU model of the output merger. Channel values are exact rationals. -/
namespace EdvrPatch.Ui

namespace uiblend

def kZero : UInt8 := 1
def kOne : UInt8 := 2
def kSrcColor : UInt8 := 3
def kInvSrcColor : UInt8 := 4
def kSrcAlpha : UInt8 := 5
def kInvSrcAlpha : UInt8 := 6
def kDestAlpha : UInt8 := 7
def kInvDestAlpha : UInt8 := 8
def kDestColor : UInt8 := 9
def kInvDestColor : UInt8 := 10
def kOpAdd : UInt8 := 1
def kWriteRgb : UInt8 := 0x7
def kWriteAlpha : UInt8 := 0x8
def kWriteAll : UInt8 := 0xF

end uiblend

open uiblend

structure UiBlendRt where
  enable : Bool := false
  src : UInt8 := kOne
  dst : UInt8 := kZero
  op : UInt8 := kOpAdd
  srcA : UInt8 := kOne
  dstA : UInt8 := kZero
  opA : UInt8 := kOpAdd
  mask : UInt8 := kWriteAll
  deriving DecidableEq, Repr

inductive UiBlendShape where
  | opaqueDraw | overDraw | premulOver | additive | scaledAdditive | multiply | refused
  deriving DecidableEq, Repr

def uiLayerBlendShape (b : UiBlendRt) : UiBlendShape :=
  if b.mask &&& kWriteRgb = 0 then .refused
  else
    let allColour := b.mask &&& kWriteRgb = kWriteRgb
    if b.enable = false then if allColour then .opaqueDraw else .refused
    else if b.op ≠ kOpAdd then .refused
    else if b.src = kOne ∧ b.dst = kZero then if allColour then .opaqueDraw else .refused
    else if b.src = kSrcAlpha ∧ b.dst = kInvSrcAlpha then if allColour then .overDraw else .refused
    else if b.src = kOne ∧ b.dst = kInvSrcAlpha then if allColour then .premulOver else .refused
    else if b.src = kOne ∧ b.dst = kOne then .additive
    else if b.src = kSrcAlpha ∧ b.dst = kOne then .scaledAdditive
    else if b.src = kZero ∧ b.dst = kSrcColor ∨ b.src = kDestColor ∧ b.dst = kZero then .multiply
    else .refused

/-- The layer's blend for a draw: the game's colour equation and mask kept, the alpha
equation such that the layer's alpha is transmittance. -/
def uiLayerConvertBlend (b : UiBlendRt) : Option UiBlendRt :=
  let o : UiBlendRt :=
    { enable := true, op := kOpAdd, opA := kOpAdd, srcA := kZero,
      mask := (b.mask &&& kWriteRgb) ||| kWriteAlpha }
  match uiLayerBlendShape b with
  | .refused => none
  | .opaqueDraw => some { o with src := kOne, dst := kZero, dstA := kZero }
  | .overDraw | .premulOver => some { o with src := b.src, dst := b.dst, dstA := kInvSrcAlpha }
  | .multiply =>
    some { o with src := b.src, dst := b.dst, dstA := kOne, mask := b.mask &&& kWriteRgb }
  | .additive | .scaledAdditive => some { o with src := b.src, dst := b.dst, dstA := kOne }

/-- The second draw of a multiply, into the transmittance of each channel. -/
def uiLayerMultiplyBlend (b : UiBlendRt) : Option UiBlendRt :=
  if uiLayerBlendShape b = .multiply then
    some { enable := true, op := kOpAdd, opA := kOpAdd, src := b.src, dst := b.dst,
           srcA := kZero, dstA := kOne, mask := b.mask &&& kWriteRgb }
  else none

/-- The channels `0` to `2` are the colours and `3` is alpha. -/
structure UiPx where
  r : Rat := 0
  g : Rat := 0
  b : Rat := 0
  a : Rat := 0
  deriving DecidableEq, Repr

def UiPx.channel (p : UiPx) : Fin 4 → Rat
  | 0 => p.r
  | 1 => p.g
  | 2 => p.b
  | 3 => p.a

def uiSat (v : Rat) : Rat := if v < 0 then 0 else if 1 < v then 1 else v

def uiBlendFactor (f : UInt8) (s d : UiPx) (c : Fin 4) : Rat :=
  if f = kZero then 0
  else if f = kOne then 1
  else if f = kSrcAlpha then s.a
  else if f = kInvSrcAlpha then 1 - s.a
  else if f = kDestAlpha then d.a
  else if f = kInvDestAlpha then 1 - d.a
  else if f = kSrcColor then s.channel c
  else if f = kInvSrcColor then 1 - s.channel c
  else if f = kDestColor then d.channel c
  else if f = kInvDestColor then 1 - d.channel c
  else 0

def UiBlendRt.writes (b : UiBlendRt) (c : Fin 4) : Bool :=
  b.mask &&& ((1 : UInt8) <<< UInt8.ofNat c.val) != 0

def uiBlendValue (b : UiBlendRt) (s d : UiPx) (c : Fin 4) : Rat :=
  if b.enable = false then s.channel c
  else
    s.channel c * uiBlendFactor (if c.val < 3 then b.src else b.srcA) s d c +
      d.channel c * uiBlendFactor (if c.val < 3 then b.dst else b.dstA) s d c

def uiBlendApply (b : UiBlendRt) (s d : UiPx) : UiPx :=
  let ov := fun c => if b.writes c then uiSat (uiBlendValue b s d c) else d.channel c
  ⟨ov 0, ov 1, ov 2, ov 3⟩

def uiCompositeValue (layer mult frame : UiPx) (c : Fin 4) : Rat :=
  layer.channel c + frame.channel c * layer.a * mult.channel c

def uiLayerCompositePx (layer mult frame : UiPx) : UiPx :=
  { r := uiSat (uiCompositeValue layer mult frame 0)
    g := uiSat (uiCompositeValue layer mult frame 1)
    b := uiSat (uiCompositeValue layer mult frame 2)
    a := frame.a }

structure UiDraw where
  blend : UiBlendRt
  source : UiPx
  deriving DecidableEq, Repr

def drawDirectly (frame : UiPx) (draws : List UiDraw) : UiPx :=
  draws.foldl (fun d draw => uiBlendApply draw.blend draw.source d) frame

/-- The layer and the multiplier of each channel, as they are cleared. -/
structure UiLayer where
  layer : UiPx := { a := 1 }
  mult : UiPx := { r := 1, g := 1, b := 1, a := 1 }
  deriving DecidableEq, Repr

/-- A draw that is accepted goes to the layer, and a multiply to the multiplier too. -/
def UiLayer.draw (l : UiLayer) (draw : UiDraw) : UiLayer :=
  match uiLayerConvertBlend draw.blend with
  | none => l
  | some conv =>
    { layer := uiBlendApply conv draw.source l.layer
      mult := match uiLayerMultiplyBlend draw.blend with
        | some tint => uiBlendApply tint draw.source l.mult
        | none => l.mult }

def Unclamped (b : UiBlendRt) (s d : UiPx) : Prop :=
  ∀ c, b.writes c → uiSat (uiBlendValue b s d c) = uiBlendValue b s d c

instance (b : UiBlendRt) (s d : UiPx) : Decidable (Unclamped b s d) :=
  inferInstanceAs (Decidable (∀ c, b.writes c → uiSat (uiBlendValue b s d c) = uiBlendValue b s d c))

def UnclampedDirectly (frame : UiPx) : List UiDraw → Prop
  | [] => True
  | draw :: rest => Unclamped draw.blend draw.source frame ∧
      UnclampedDirectly (uiBlendApply draw.blend draw.source frame) rest

def UnclampedInLayer (l : UiLayer) : List UiDraw → Prop
  | [] => True
  | draw :: rest =>
    (∀ conv, uiLayerConvertBlend draw.blend = some conv → Unclamped conv draw.source l.layer) ∧
    (∀ tint, uiLayerMultiplyBlend draw.blend = some tint → Unclamped tint draw.source l.mult) ∧
    UnclampedInLayer (l.draw draw) rest

end EdvrPatch.Ui
