import OpenHes.Model.WizClient

/-!
# The brightness of a bulb

The level that is read from "dimming" is clamped once it is an `int`; the one that is made of the
colour channels is not. The replies for which the conversions are defined and the level is a
percentage are told.
-/

set_option autoImplicit false

namespace OpenHes.Analysis

open OpenHes.Library OpenHes.Model

/-- A number of a reply. -/
def replyNumber (root : Json) (key : CStr) : Option Binary64 :=
  (replyField root key).bind numberValue

/-- **A sound reading**: no conversion and no sum leaves `int`, and a level that is returned is a
percentage. -/
def BrightnessSound (root : Json) : Prop :=
  ∃ out, brightnessOfReply root = some out ∧ ∀ level ∈ out, 0 ≤ level ∧ level ≤ 100

/-- Three channels whose integer parts fit, and the greatest of them is from -3 to 256. -/
def ChannelsFit (r g b : Binary64) : Prop :=
  ∃ rv gv bv, Binary64.toInt r = some rv ∧ Binary64.toInt g = some gv ∧
    Binary64.toInt b = some bv ∧ -3 ≤ max (max rv gv) bv ∧ max (max rv gv) bv ≤ 256

/-- The replies whose numbers fit: the integer part of a "dimming" is an `int`; without one, if
all three channels are numbers, they fit. -/
structure ReplyFits (root : Json) : Prop where
  dimming : ∀ x, replyNumber root (lit "dimming") = some x → ∃ v, Binary64.toInt x = some v
  channels : replyNumber root (lit "dimming") = none →
    ∀ r g b, replyNumber root (lit "r") = some r → replyNumber root (lit "g") = some g →
      replyNumber root (lit "b") = some b → ChannelsFit r g b

/-- INTERNAL: a clamped level is a percentage. -/
theorem clamp100_bounds (v : ℤ) : 0 ≤ clamp100 v ∧ clamp100 v ≤ 100 := by
  unfold clamp100
  split
  · omega
  · split <;> omega

/-- INTERNAL: an `int` is computed where it fits. -/
theorem intArith_eq_some (n m : ℤ) : intArith n = some m ↔ FitsInt32 n ∧ n = m := by
  unfold intArith
  by_cases h : FitsInt32 n
  · rw [if_pos h, Option.some.injEq]
    exact ⟨fun heq => ⟨h, heq⟩, fun heq => heq.2⟩
  · rw [if_neg h]
    constructor
    · intro heq
      cases heq
    · exact fun heq => absurd heq.1 h

/-- INTERNAL: a quotient that is rounded to zero. -/
theorem tdiv_percent_iff (n : ℤ) :
    (0 ≤ n.tdiv 255 ∧ n.tdiv 255 ≤ 100) ↔ -255 < n ∧ n < 25755 := by
  rcases le_total 0 n with hn | hn
  · rw [Int.tdiv_eq_ediv_of_nonneg hn]
    omega
  · rw [← Int.neg_neg n, Int.neg_tdiv, Int.tdiv_eq_ediv_of_nonneg (by omega)]
    omega

/-- INTERNAL: **the percentage of a peak** is one exactly when the peak is from -3 to 256; then
no sum leaves `int`. -/
theorem percentOfPeak_sound (peak : ℤ) :
    (∃ level, percentOfPeak peak = some level ∧ 0 ≤ level ∧ level ≤ 100) ↔
      -3 ≤ peak ∧ peak ≤ 256 := by
  have hlevel := tdiv_percent_iff (peak * 100 + 127)
  unfold percentOfPeak
  simp only [Option.bind_eq_bind, Option.bind_eq_some_iff, intArith_eq_some]
  constructor
  · rintro ⟨level, ⟨scaled, ⟨-, rfl⟩, rounded, ⟨-, rfl⟩, heq⟩, hbounds⟩
    rw [← Option.some.inj heq, hlevel] at hbounds
    omega
  · intro hpeak
    have hscaled : FitsInt32 (peak * 100) := by
      unfold FitsInt32
      omega
    have hrounded : FitsInt32 (peak * 100 + 127) := by
      unfold FitsInt32
      omega
    exact ⟨_, ⟨_, ⟨hscaled, rfl⟩, _, ⟨hrounded, rfl⟩, rfl⟩, hlevel.mpr (by omega)⟩

/-- INTERNAL: the level of three channels is the percentage of the highest. -/
theorem peakLevel_eq (r g b : Binary64) :
    peakLevel r g b = (Binary64.toInt r).bind fun rv => (Binary64.toInt g).bind fun gv =>
      (Binary64.toInt b).bind fun bv => percentOfPeak (max (max rv gv) bv) := by
  have hmax : ∀ p q : ℤ, (if p < q then q else p) = max p q := by
    intro p q
    split <;> omega
  unfold peakLevel
  simp only [Option.bind_eq_bind, hmax]

/-- INTERNAL: **the fallback** gives a percentage exactly when the channels fit. -/
theorem peakLevel_sound (r g b : Binary64) :
    (∃ level, peakLevel r g b = some level ∧ 0 ≤ level ∧ level ≤ 100) ↔ ChannelsFit r g b := by
  rw [peakLevel_eq]
  unfold ChannelsFit
  constructor
  · rintro ⟨level, h, hlevel⟩
    simp only [Option.bind_eq_some_iff] at h
    obtain ⟨rv, hr, gv, hg, bv, hb, h⟩ := h
    exact ⟨rv, gv, bv, hr, hg, hb, (percentOfPeak_sound _).mp ⟨level, h, hlevel⟩⟩
  · rintro ⟨rv, gv, bv, hr, hg, hb, hpeak⟩
    obtain ⟨level, h, hlevel⟩ := (percentOfPeak_sound _).mpr hpeak
    refine ⟨level, ?_, hlevel⟩
    rw [hr, Option.bind_some, hg, Option.bind_some, hb, Option.bind_some, h]

/-! ## The three kinds of replies -/

/-- INTERNAL: a reply with 'dimming' tells that level, clamped. -/
theorem brightnessOfReply_dimming (root : Json) (x : Binary64)
    (h : replyNumber root (lit "dimming") = some x) :
    brightnessOfReply root = (Binary64.toInt x).map fun v => some (clamp100 v) := by
  unfold replyNumber at h
  unfold brightnessOfReply
  rw [h]

/-- INTERNAL: one with three channels and no 'dimming' tells their level. -/
theorem brightnessOfReply_channels (root : Json) (r g b : Binary64)
    (h : replyNumber root (lit "dimming") = none) (hr : replyNumber root (lit "r") = some r)
    (hg : replyNumber root (lit "g") = some g) (hb : replyNumber root (lit "b") = some b) :
    brightnessOfReply root = (peakLevel r g b).map some := by
  unfold replyNumber at h hr hg hb
  unfold brightnessOfReply
  rw [h, hr, hg, hb]

/-- INTERNAL: one with neither tells none. -/
theorem brightnessOfReply_neither (root : Json) (h : replyNumber root (lit "dimming") = none)
    (hno : replyNumber root (lit "r") = none ∨ replyNumber root (lit "g") = none ∨
      replyNumber root (lit "b") = none) :
    brightnessOfReply root = some none := by
  unfold replyNumber at h hno
  unfold brightnessOfReply
  rw [h]
  rcases hno with hr | hg | hb
  · rw [hr]
  · rw [hg]
    cases (replyField root (lit "r")).bind numberValue <;> rfl
  · rw [hb]
    cases (replyField root (lit "r")).bind numberValue <;>
      cases (replyField root (lit "g")).bind numberValue <;> rfl

/-- **Brightness readings are percentages**, with every conversion and sum inside `int`, exactly
for the replies whose numbers fit.
SRCLINE: wiz_client.c:408-456 -/
theorem brightness_sound_iff (root : Json) : BrightnessSound root ↔ ReplyFits root := by
  cases hdimming : replyNumber root (lit "dimming") with
  | some x =>
    have hread := brightnessOfReply_dimming root x hdimming
    unfold BrightnessSound
    rw [hread]
    constructor
    · rintro ⟨out, hout, -⟩
      obtain ⟨v, hv, -⟩ := Option.map_eq_some_iff.mp hout
      refine ⟨fun y hy => ?_, fun hnone => ?_⟩
      · rw [hdimming] at hy
        exact ⟨v, Option.some.inj hy ▸ hv⟩
      · rw [hdimming] at hnone
        cases hnone
    · intro h
      obtain ⟨v, hv⟩ := h.dimming x hdimming
      refine ⟨some (clamp100 v), by rw [hv, Option.map_some], fun level hlevel => ?_⟩
      rw [← Option.some.inj hlevel]
      exact clamp100_bounds v
  | none =>
    have hfits : ReplyFits root ↔
        ∀ r g b, replyNumber root (lit "r") = some r → replyNumber root (lit "g") = some g →
          replyNumber root (lit "b") = some b → ChannelsFit r g b := by
      constructor
      · exact fun h => h.channels hdimming
      · intro h
        refine ⟨fun x hx => ?_, fun _ => h⟩
        rw [hdimming] at hx
        cases hx
    rw [hfits]
    by_cases hno : replyNumber root (lit "r") = none ∨ replyNumber root (lit "g") = none ∨
        replyNumber root (lit "b") = none
    · have hread := brightnessOfReply_neither root hdimming hno
      constructor
      · intro _ r g b hr hg hb
        rw [hr, hg, hb] at hno
        rcases hno with h | h | h <;> cases h
      · intro _
        exact ⟨none, hread, fun level hlevel => (Option.not_mem_none level hlevel).elim⟩
    · push Not at hno
      obtain ⟨hr, hg, hb⟩ := hno
      obtain ⟨r, hr⟩ := Option.ne_none_iff_exists'.mp hr
      obtain ⟨g, hg⟩ := Option.ne_none_iff_exists'.mp hg
      obtain ⟨b, hb⟩ := Option.ne_none_iff_exists'.mp hb
      unfold BrightnessSound
      rw [brightnessOfReply_channels root r g b hdimming hr hg hb]
      have hlevel := peakLevel_sound r g b
      constructor
      · rintro ⟨out, hout, hbounds⟩ r' g' b' hr' hg' hb'
        obtain ⟨level, hpeak, rfl⟩ := Option.map_eq_some_iff.mp hout
        rw [hr] at hr'
        rw [hg] at hg'
        rw [hb] at hb'
        cases hr'
        cases hg'
        cases hb'
        exact hlevel.mp ⟨level, hpeak, hbounds level rfl⟩
      · intro h
        obtain ⟨level, hpeak, hbounds⟩ := hlevel.mpr (h r g b hr hg hb)
        refine ⟨some level, by rw [hpeak, Option.map_some], fun other hother => ?_⟩
        rw [← Option.some.inj hother]
        exact hbounds

/-- The reply of a lamp without "dimming" whose red channel is above 255. -/
def brightReply : CStr :=
  lit "\x7b\"method\":\"getPilot\",\"result\":\x7b\"r\":1000,\"g\":0,\"b\":0\x7d\x7d"

/-- A reply whose "dimming" no `int` holds. -/
def hugeReply : CStr :=
  lit "\x7b\"method\":\"getPilot\",\"result\":\x7b\"dimming\":1e10\x7d\x7d"

/-- A channel of 1000 gives 392 percent, and a huge one an undefined conversion. -/
theorem brightness_above_hundred :
    wizClientGetBrightness (some brightReply) = some (some 392) ∧
      wizClientGetBrightness (some hugeReply) = none ∧
      ¬∀ root : Json, BrightnessSound root := by
  have hread : wizClientGetBrightness (some brightReply) = some (some 392) := by decide +kernel
  refine ⟨hread, by decide +kernel, fun h => ?_⟩
  unfold wizClientGetBrightness at hread
  cases hroot : (some brightReply).bind Json.loads with
  | none =>
    rw [hroot] at hread
    cases hread
  | some root =>
    rw [hroot] at hread
    have hlevel : brightnessOfReply root = some (some 392) := hread
    obtain ⟨out, hout, hbounds⟩ := h root
    rw [hlevel] at hout
    cases hout
    have := (hbounds 392 rfl).2
    omega

end OpenHes.Analysis
