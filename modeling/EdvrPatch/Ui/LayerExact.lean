import EdvrPatch.Ui.LayerBlend

/-! The layer is exact. A draw is an affine map of each channel of what lies beneath;
the layer and its multiplier hold the composition of the maps drawn so far. -/
namespace EdvrPatch.Ui

open Lib uiblend

/-! ### Masks -/

theorem forall_mask {P : UInt8 → Prop} (all : ∀ n : Fin 256, P (UInt8.ofFin n)) (m : UInt8) :
    P m := by
  simpa using all m.toFin

def maskWrites (mask : UInt8) (c : Fin 4) : Bool :=
  mask &&& ((1 : UInt8) <<< UInt8.ofNat c.val) != 0

theorem UiBlendRt.writes_eq (b : UiBlendRt) (c : Fin 4) : b.writes c = maskWrites b.mask c := rfl

variable {mask : UInt8} {c : Fin 4}

theorem maskWrites_of_all (all : mask &&& kWriteRgb = kWriteRgb) (colour : c.val < 3) :
    maskWrites mask c :=
  forall_mask (P := fun m => m &&& kWriteRgb = kWriteRgb → ∀ c : Fin 4, c.val < 3 → maskWrites m c)
    (by decide +kernel) mask all c colour

theorem maskWrites_rgb (mask : UInt8) (colour : c.val < 3) :
    maskWrites (mask &&& kWriteRgb) c = maskWrites mask c :=
  forall_mask (P := fun m => ∀ c : Fin 4, c.val < 3 →
    maskWrites (m &&& kWriteRgb) c = maskWrites m c) (by decide +kernel) mask c colour

theorem maskWrites_rgb_alpha (mask : UInt8) : maskWrites (mask &&& kWriteRgb) 3 = false :=
  forall_mask (P := fun m => maskWrites (m &&& kWriteRgb) 3 = false) (by decide +kernel) mask

theorem maskWrites_layer (mask : UInt8) (colour : c.val < 3) :
    maskWrites (mask &&& kWriteRgb ||| kWriteAlpha) c = maskWrites mask c :=
  forall_mask (P := fun m => ∀ c : Fin 4, c.val < 3 →
    maskWrites (m &&& kWriteRgb ||| kWriteAlpha) c = maskWrites m c) (by decide +kernel) mask c colour

theorem maskWrites_layer_alpha (mask : UInt8) :
    maskWrites (mask &&& kWriteRgb ||| kWriteAlpha) 3 :=
  forall_mask (P := fun m => maskWrites (m &&& kWriteRgb ||| kWriteAlpha) 3)
    (by decide +kernel) mask

theorem rgb_of_layer_mask (mask : UInt8) :
    (mask &&& kWriteRgb ||| kWriteAlpha) &&& kWriteRgb = mask &&& kWriteRgb :=
  forall_mask (P := fun m => (m &&& kWriteRgb ||| kWriteAlpha) &&& kWriteRgb = m &&& kWriteRgb)
    (by decide +kernel) mask

/-! ### Shapes -/

/-- The blends of each accepted shape. The shapes that cover write all colours. -/
inductive Shaped (b : UiBlendRt) : UiBlendShape → Prop where
  | off (all : b.mask &&& kWriteRgb = kWriteRgb) (off : b.enable = false) : Shaped b .opaqueDraw
  | replace (all : b.mask &&& kWriteRgb = kWriteRgb) (on : b.enable = true)
      (src : b.src = kOne) (dst : b.dst = kZero) : Shaped b .opaqueDraw
  | overDraw (all : b.mask &&& kWriteRgb = kWriteRgb) (on : b.enable = true)
      (src : b.src = kSrcAlpha) (dst : b.dst = kInvSrcAlpha) : Shaped b .overDraw
  | premulOver (all : b.mask &&& kWriteRgb = kWriteRgb) (on : b.enable = true)
      (src : b.src = kOne) (dst : b.dst = kInvSrcAlpha) : Shaped b .premulOver
  | additive (on : b.enable = true) (src : b.src = kOne) (dst : b.dst = kOne) :
      Shaped b .additive
  | scaledAdditive (on : b.enable = true) (src : b.src = kSrcAlpha) (dst : b.dst = kOne) :
      Shaped b .scaledAdditive
  | tintBySource (on : b.enable = true) (src : b.src = kZero) (dst : b.dst = kSrcColor) :
      Shaped b .multiply
  | tintByDest (on : b.enable = true) (src : b.src = kDestColor) (dst : b.dst = kZero) :
      Shaped b .multiply

variable {b : UiBlendRt}

theorem shaped (accepted : uiLayerBlendShape b ≠ .refused) : Shaped b (uiLayerBlendShape b) := by
  unfold uiLayerBlendShape at accepted ⊢
  split at accepted
  · exact absurd rfl accepted
  rename_i colours
  rw [if_neg colours]
  dsimp only at accepted ⊢
  split at accepted
  · rename_i off
    split at accepted
    · rename_i all
      rw [if_pos off, if_pos all]
      exact .off all off
    · exact absurd rfl accepted
  rename_i on
  rw [if_neg on]
  have on : b.enable = true := by simpa using on
  split at accepted
  · exact absurd rfl accepted
  rename_i adds
  rw [if_neg adds]
  split at accepted
  · rename_i factors
    split at accepted
    · rename_i all
      rw [if_pos factors, if_pos all]
      exact .replace all on factors.1 factors.2
    · exact absurd rfl accepted
  rename_i next
  rw [if_neg next]
  split at accepted
  · rename_i factors
    split at accepted
    · rename_i all
      rw [if_pos factors, if_pos all]
      exact .overDraw all on factors.1 factors.2
    · exact absurd rfl accepted
  rename_i next
  rw [if_neg next]
  split at accepted
  · rename_i factors
    split at accepted
    · rename_i all
      rw [if_pos factors, if_pos all]
      exact .premulOver all on factors.1 factors.2
    · exact absurd rfl accepted
  rename_i next
  rw [if_neg next]
  split at accepted
  · rename_i factors
    rw [if_pos factors]
    exact .additive on factors.1 factors.2
  rename_i next
  rw [if_neg next]
  split at accepted
  · rename_i factors
    rw [if_pos factors]
    exact .scaledAdditive on factors.1 factors.2
  rename_i next
  rw [if_neg next]
  split at accepted
  · rename_i factors
    rw [if_pos factors]
    rcases factors with ⟨src, dst⟩ | ⟨src, dst⟩
    · exact .tintBySource on src dst
    · exact .tintByDest on src dst
  · exact absurd rfl accepted

/-- What a draw of a shape does to a colour channel that it writes. -/
def shapeMap (s : UiPx) (c : Fin 4) : UiBlendShape → Affine Rat
  | .opaqueDraw => ⟨s.channel c, 0⟩
  | .overDraw => ⟨s.channel c * s.a, 1 - s.a⟩
  | .premulOver => ⟨s.channel c, 1 - s.a⟩
  | .additive => ⟨s.channel c, 1⟩
  | .scaledAdditive => ⟨s.channel c * s.a, 1⟩
  | .multiply => ⟨0, s.channel c⟩
  | .refused => .id

def drawMap (b : UiBlendRt) (s : UiPx) (c : Fin 4) : Affine Rat :=
  if b.writes c then shapeMap s c (uiLayerBlendShape b) else .id

theorem shaped_value {shape : UiBlendShape} (h : Shaped b shape) (s d : UiPx) (colour : c.val < 3) :
    uiBlendValue b s d c = (shapeMap s c shape).apply (d.channel c) := by
  cases h with
  | off all off => simp [uiBlendValue, off, shapeMap, Affine.apply]
  | replace all on src dst | overDraw all on src dst | premulOver all on src dst
  | additive on src dst | scaledAdditive on src dst | tintBySource on src dst
  | tintByDest on src dst =>
    simp [uiBlendValue, on, src, dst, colour, shapeMap, Affine.apply, uiBlendFactor, kZero, kOne,
      kSrcAlpha, kInvSrcAlpha, kSrcColor, kDestColor, kDestAlpha, kInvDestAlpha, kInvSrcColor,
      mul_comm]

/-! ### One draw -/

variable {s d : UiPx}

theorem uiBlendApply_channel (free : Unclamped b s d) (c : Fin 4) :
    (uiBlendApply b s d).channel c = if b.writes c then uiBlendValue b s d c else d.channel c := by
  have written : ∀ c, (if b.writes c then uiSat (uiBlendValue b s d c) else d.channel c) =
      if b.writes c then uiBlendValue b s d c else d.channel c := by
    intro c
    split
    · rename_i writes
      exact free c writes
    · rfl
  rw [← written]
  fin_cases c <;> rfl

theorem direct_channel (accepted : uiLayerBlendShape b ≠ .refused) (free : Unclamped b s d)
    (colour : c.val < 3) :
    (uiBlendApply b s d).channel c = (drawMap b s c).apply (d.channel c) := by
  rw [uiBlendApply_channel free, drawMap]
  split
  · exact shaped_value (shaped accepted) s d colour
  · rw [Affine.apply_id]

def UiLayer.map (l : UiLayer) (c : Fin 4) : Affine Rat :=
  ⟨l.layer.channel c, l.layer.a * l.mult.channel c⟩

/-- How much of what lies beneath shows through a draw of a shape, in all channels alike. -/
def cover (s : UiPx) : UiBlendShape → Rat
  | .opaqueDraw => 0
  | .overDraw | .premulOver => 1 - s.a
  | _ => 1

/-- By what a draw of a shape scales one channel of what lies beneath. -/
def tint (s : UiPx) (c : Fin 4) : UiBlendShape → Rat
  | .multiply => s.channel c
  | _ => 1

theorem shapeMap_slope (s : UiPx) (c : Fin 4) (shape : UiBlendShape) :
    (shapeMap s c shape).slope = cover s shape * tint s c shape := by
  cases shape <;> simp [shapeMap, cover, tint, Affine.id]

theorem cover_eq_one {shape : UiBlendShape} (h : Shaped b shape) (colour : c.val < 3)
    (kept : b.writes c = false) (s : UiPx) : cover s shape = 1 := by
  cases h with
  | off all | replace all | overDraw all | premulOver all =>
    rw [b.writes_eq, maskWrites_of_all all colour] at kept
    cases kept
  | additive | scaledAdditive | tintBySource | tintByDest => rfl

/-- The blend into the layer has the shape of the game's blend, writes the same colours
and keeps in alpha what shows through. -/
structure Converted (b conv : UiBlendRt) (shape : UiBlendShape) : Prop where
  shaped : Shaped conv shape
  writes : ∀ c : Fin 4, c.val < 3 → conv.writes c = b.writes c
  alpha : ∀ s d, Unclamped conv s d → (uiBlendApply conv s d).a = d.a * cover s shape

variable {conv : UiBlendRt}

theorem layer_alpha (on : conv.enable = true)
    (isMask : conv.mask = mask &&& kWriteRgb ||| kWriteAlpha) (srcA : conv.srcA = kZero)
    (free : Unclamped conv s d) :
    (uiBlendApply conv s d).a = d.a * uiBlendFactor conv.dstA s d 3 := by
  have alpha := uiBlendApply_channel free 3
  rw [conv.writes_eq, isMask, maskWrites_layer_alpha, if_pos rfl] at alpha
  have value : uiBlendValue conv s d 3 = d.a * uiBlendFactor conv.dstA s d 3 := by
    simp [uiBlendValue, on, srcA, uiBlendFactor, UiPx.channel]
  exact alpha.trans value

theorem multiply_alpha (isMask : conv.mask = mask &&& kWriteRgb) (free : Unclamped conv s d) :
    (uiBlendApply conv s d).a = d.a := by
  have alpha := uiBlendApply_channel free 3
  rw [conv.writes_eq, isMask, maskWrites_rgb_alpha, if_neg Bool.false_ne_true] at alpha
  exact alpha

theorem converted (converts : uiLayerConvertBlend b = some conv) :
    Converted b conv (uiLayerBlendShape b) := by
  have accepted : uiLayerBlendShape b ≠ .refused := by
    intro refused
    simp [uiLayerConvertBlend, refused] at converts
  have shape := shaped accepted
  unfold uiLayerConvertBlend at converts
  generalize uiLayerBlendShape b = s at shape converts ⊢
  cases shape with
  | off all | replace all =>
    cases converts
    refine ⟨.replace (by simpa only [rgb_of_layer_mask]) rfl rfl rfl,
      fun c colour => maskWrites_layer _ colour, fun s d free => ?_⟩
    exact layer_alpha rfl rfl rfl free
  | overDraw all _ src dst =>
    cases converts
    refine ⟨.overDraw (by simpa only [rgb_of_layer_mask]) rfl src dst,
      fun c colour => maskWrites_layer _ colour, fun s d free => ?_⟩
    exact layer_alpha rfl rfl rfl free
  | premulOver all _ src dst =>
    cases converts
    refine ⟨.premulOver (by simpa only [rgb_of_layer_mask]) rfl src dst,
      fun c colour => maskWrites_layer _ colour, fun s d free => ?_⟩
    exact layer_alpha rfl rfl rfl free
  | additive _ src dst =>
    cases converts
    refine ⟨.additive rfl src dst, fun c colour => maskWrites_layer _ colour,
      fun s d free => ?_⟩
    exact layer_alpha rfl rfl rfl free
  | scaledAdditive _ src dst =>
    cases converts
    refine ⟨.scaledAdditive rfl src dst, fun c colour => maskWrites_layer _ colour,
      fun s d free => ?_⟩
    exact layer_alpha rfl rfl rfl free
  | tintBySource _ src dst =>
    cases converts
    refine ⟨.tintBySource rfl src dst, fun c colour => maskWrites_rgb _ colour,
      fun s d free => ?_⟩
    exact (multiply_alpha rfl free).trans (mul_one _).symm
  | tintByDest _ src dst =>
    cases converts
    refine ⟨.tintByDest rfl src dst, fun c colour => maskWrites_rgb _ colour,
      fun s d free => ?_⟩
    exact (multiply_alpha rfl free).trans (mul_one _).symm

theorem mult_channel {draw : UiDraw} (l : UiLayer)
    (converts : uiLayerConvertBlend draw.blend = some conv)
    (inMult : ∀ tint, uiLayerMultiplyBlend draw.blend = some tint → Unclamped tint draw.source l.mult)
    (colour : c.val < 3) :
    (l.draw draw).mult.channel c =
      if draw.blend.writes c then
        l.mult.channel c * tint draw.source c (uiLayerBlendShape draw.blend)
      else l.mult.channel c := by
  unfold UiLayer.draw
  rw [converts]
  dsimp only
  cases second : uiLayerMultiplyBlend draw.blend with
  | none =>
    have other : uiLayerBlendShape draw.blend ≠ .multiply := by
      intro isMultiply
      simp [uiLayerMultiplyBlend, isMultiply] at second
    have : tint draw.source c (uiLayerBlendShape draw.blend) = 1 := by
      cases shape : uiLayerBlendShape draw.blend <;> first | rfl | exact absurd shape other
    rw [this, mul_one, ite_self]
  | some blend =>
    have free := inMult blend second
    unfold uiLayerMultiplyBlend at second
    split at second
    · rename_i isMultiply
      have shape := shaped (b := draw.blend) (by rw [isMultiply]; decide)
      rw [isMultiply] at shape ⊢
      have same : Shaped blend .multiply := by
        cases second
        cases shape with
        | tintBySource _ src dst => exact .tintBySource rfl src dst
        | tintByDest _ src dst => exact .tintByDest rfl src dst
      have writes : blend.writes c = draw.blend.writes c := by
        cases second
        exact maskWrites_rgb _ colour
      rw [uiBlendApply_channel free, shaped_value same _ _ colour, writes]
      simp [shapeMap, Affine.apply, tint]
    · cases second

theorem layer_step {draw : UiDraw} (l : UiLayer)
    (converts : uiLayerConvertBlend draw.blend = some conv)
    (inLayer : Unclamped conv draw.source l.layer)
    (inMult : ∀ tint, uiLayerMultiplyBlend draw.blend = some tint → Unclamped tint draw.source l.mult)
    (colour : c.val < 3) :
    (l.draw draw).map c = (l.map c).andThen (drawMap draw.blend draw.source c) := by
  have layerBlend := converted converts
  have accepted : uiLayerBlendShape draw.blend ≠ .refused := by
    intro refused
    simp [uiLayerConvertBlend, refused] at converts
  have isLayer : (l.draw draw).layer = uiBlendApply conv draw.source l.layer := by
    simp [UiLayer.draw, converts]
  have value := uiBlendApply_channel inLayer c
  rw [layerBlend.writes c colour, shaped_value layerBlend.shaped _ _ colour] at value
  have alpha := layerBlend.alpha _ _ inLayer
  have mult := mult_channel l converts inMult colour
  unfold UiLayer.map
  rw [isLayer, value, alpha, mult, drawMap]
  cases writes : draw.blend.writes c with
  | true =>
    simp only [if_true, Affine.andThen, shapeMap_slope, Affine.mk.injEq, true_and]
    ring
  | false =>
    rw [cover_eq_one (shaped accepted) colour writes]
    simp [Affine.andThen, Affine.id, Affine.apply]

/-! ### Any sequence of draws -/

theorem layer_draws {draws : List UiDraw} {frame : UiPx} {l : UiLayer} (colour : c.val < 3)
    (accepted : ∀ draw ∈ draws, (uiLayerConvertBlend draw.blend).isSome)
    (directly : UnclampedDirectly d draws) (inLayer : UnclampedInLayer l draws)
    (agree : d.channel c = (l.map c).apply (frame.channel c)) :
    (drawDirectly d draws).channel c =
      ((draws.foldl UiLayer.draw l).map c).apply (frame.channel c) := by
  induction draws generalizing d l with
  | nil => exact agree
  | cons draw rest ih =>
    obtain ⟨conv, converts⟩ := Option.isSome_iff_exists.mp (accepted draw (List.mem_cons_self ..))
    obtain ⟨here, later⟩ := directly
    obtain ⟨layerHere, multHere, layerLater⟩ := inLayer
    refine ih (fun other mem => accepted other (List.mem_cons_of_mem _ mem)) later layerLater ?_
    have notRefused : uiLayerBlendShape draw.blend ≠ .refused := by
      intro refused
      simp [uiLayerConvertBlend, refused] at converts
    rw [direct_channel notRefused here colour,
      layer_step l converts (layerHere conv converts) multHere colour, Affine.apply_andThen, agree]

theorem compositeValue_eq (l : UiLayer) (frame : UiPx) (c : Fin 4) :
    uiCompositeValue l.layer l.mult frame c = (l.map c).apply (frame.channel c) := by
  simp only [uiCompositeValue, UiLayer.map, Affine.apply, mul_assoc]

/-- The layer over any frame pixel is what the game's own blends make of it. -/
theorem uiLayerCompositePx_eq_direct (draws : List UiDraw) (frame : UiPx)
    (accepted : ∀ draw ∈ draws, (uiLayerConvertBlend draw.blend).isSome)
    (directly : UnclampedDirectly frame draws) (inLayer : UnclampedInLayer {} draws)
    (composite : ∀ c : Fin 4, c.val < 3 →
      uiSat (uiCompositeValue (draws.foldl UiLayer.draw {}).layer
        (draws.foldl UiLayer.draw {}).mult frame c) =
      uiCompositeValue (draws.foldl UiLayer.draw {}).layer
        (draws.foldl UiLayer.draw {}).mult frame c) (c : Fin 4) (colour : c.val < 3) :
    (uiLayerCompositePx (draws.foldl UiLayer.draw {}).layer (draws.foldl UiLayer.draw {}).mult
      frame).channel c = (drawDirectly frame draws).channel c := by
  have start : frame.channel c = (UiLayer.map {} c).apply (frame.channel c) := by
    fin_cases c <;> simp [UiLayer.map, Affine.apply, UiPx.channel] at colour ⊢
  rw [layer_draws colour accepted directly inLayer start, ← compositeValue_eq, ← composite c colour]
  fin_cases c <;> simp [uiLayerCompositePx, UiPx.channel] at colour ⊢

def sampleDraws : List UiDraw :=
  [⟨{ enable := true, src := kSrcAlpha, dst := kInvSrcAlpha }, ⟨1, 1, 0, 1 / 2⟩⟩,
    ⟨{ enable := true, src := kZero, dst := kSrcColor, mask := 1 }, ⟨1 / 3, 0, 0, 1⟩⟩]

theorem uiLayerCompositePx_sample :
    (uiLayerCompositePx (sampleDraws.foldl UiLayer.draw {}).layer
      (sampleDraws.foldl UiLayer.draw {}).mult ⟨1 / 4, 1 / 2, 3 / 4, 1⟩).channel 0 = 5 / 24 := by
  refine (uiLayerCompositePx_eq_direct sampleDraws ⟨1 / 4, 1 / 2, 3 / 4, 1⟩ (by decide +kernel)
    ⟨?_, ?_, trivial⟩ ⟨?_, ?_, ?_, ?_, trivial⟩ (by decide +kernel) 0 (by decide)).trans ?_
  · decide +kernel
  · decide +kernel
  · rintro conv ⟨⟩
    decide +kernel
  · rintro tint ⟨⟩
  · rintro conv ⟨⟩
    decide +kernel
  · rintro tint ⟨⟩
    decide +kernel
  · decide +kernel

end EdvrPatch.Ui
