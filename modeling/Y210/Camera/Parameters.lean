/-
  File:      Y210/Camera/Parameters.lean
  Subject:   THE PARAMETERS OF THE CAMERA WRAPPER (`Y210CameraWrapper.cpp`): three maps with three
             lists of keys stand between the application and the blob.

  * `Framework` -- what is used of `CameraParameters`, which is the platform's;
  * `seedParameters`, `sanitizeParameters`, `buildDelegatedParameters`, `setParameters`,
    `getParameters` -- the wrapper, on its cache;
  * `copyKeys_apply` -- one lemma for both lists of copies;
  * `delegated_iff` -- what reaches the blob: every delegatable key but one, `recording-hint`, which
    the middle list does not have;
  * `write_back_keeps` -- parameters read and written back change nothing.
-/
import Mathlib.Logic.Function.Basic

namespace Y210.Camera

/-! ## 1. Maps of parameters -/

/-- The keys of `CameraParameters` that the wrapper names, its own, and all others. -/
inductive Key
  | previewSize
  | supportedPreviewSizes
  | previewFormat
  | supportedPreviewFormats
  | previewFrameRate
  | supportedPreviewFrameRates
  | previewFpsRange
  | supportedPreviewFpsRange
  | previewFrameRateMode
  | supportedPreviewFrameRateModes
  | pictureSize
  | supportedPictureSizes
  | pictureFormat
  | supportedPictureFormats
  | jpegThumbnailWidth
  | jpegThumbnailHeight
  | jpegThumbnailQuality
  | jpegQuality
  | rotation
  | focusMode
  | supportedFocusModes
  | whiteBalance
  | supportedWhiteBalance
  | antibanding
  | effect
  | supportedEffects
  | zoom
  | maxZoom
  | zoomRatios
  | zoomSupported
  | videoSize
  | videoFrameFormat
  | videoHighFrameRate
  | supportedVideoHighFrameRateModes
  | supportedHfrSizes
  | denoise
  | supportedDenoise
  | redeyeReduction
  | supportedRedeyeReduction
  /-- `"supported-video-sizes"`. -/
  | supportedVideoSizes
  /-- `"preferred-preview-size-for-video"`. -/
  | preferredPreviewSizeForVideo
  /-- `"recording-hint"`. -/
  | recordingHint
  | other (name : String)
  deriving DecidableEq, Repr

abbrev Value := List Char

/-- `mMap`. -/
abbrev Params := Key → Option Value

/-- A value that can stand in a flattened map. -/
def Plain (v : Value) : Prop := '=' ∉ v ∧ ';' ∉ v

instance (v : Value) : Decidable (Plain v) := inferInstanceAs (Decidable (_ ∧ _))

def size640x480 : Value := "640x480".toList
def size480x320 : Value := "480x320".toList

/-- What is used of `CameraParameters`: which values `set` takes (it refuses those that a flattened
    map cannot hold, and the versions of it differ in how many of them), what `get` returns for an
    entry of the map, with `none` for `NULL`, and how `getPreviewSize` reads that. -/
structure Framework where
  settable : Value → Bool
  settable_plain : ∀ v, Plain v → settable v = true
  read : Option Value → Option Value
  read_absent : read none = none
  read_empty : read (some []) = none
  read_value : ∀ v, v ≠ [] → read (some v) = some v
  previewSize : Option Value → Int × Int
  previewSize_640x480 : previewSize (some size640x480) = (640, 480)
  previewSize_480x320 : previewSize (some size480x320) = (480, 320)

/-- `get`. -/
def Params.get (fw : Framework) (p : Params) (k : Key) : Option Value := fw.read (p k)

/-- `set`. -/
def Params.set (fw : Framework) (p : Params) (k : Key) (v : Value) : Params :=
  if fw.settable v then Function.update p k (some v) else p

/-- `getPreviewSize`. -/
def Params.getPreviewSize (fw : Framework) (p : Params) : Int × Int :=
  fw.previewSize (p.get fw .previewSize)

/-! ## 2. The wrapper's maps -/

def yuv420sp : Value := "yuv420sp".toList
def jpeg : Value := "jpeg".toList

/-- What `seedParameters` sets, in its order. -/
def seeds : List (Key × Value) := [
  (.previewSize, size640x480),
  (.previewFrameRate, "15".toList),
  (.previewFormat, yuv420sp),
  (.pictureSize, "1600x1200".toList),
  (.pictureFormat, jpeg),
  (.jpegQuality, "100".toList),
  (.jpegThumbnailWidth, "512".toList),
  (.jpegThumbnailHeight, "384".toList),
  (.jpegThumbnailQuality, "90".toList),
  (.focusMode, "auto".toList),
  (.whiteBalance, "auto".toList),
  (.effect, "none".toList),
  (.rotation, "0".toList),
  (.supportedPreviewSizes, "640x480,480x320,352x288,240x160,176x144".toList),
  (.supportedPictureSizes, "1600x1200,640x480,512x384,320x240".toList),
  (.supportedPreviewFrameRates, "15".toList),
  (.previewFpsRange, "5000,31000".toList),
  (.supportedPreviewFpsRange, "(5000,31000)".toList),
  (.supportedPictureFormats, jpeg),
  (.supportedPreviewFormats, yuv420sp),
  (.supportedWhiteBalance, "auto".toList),
  (.supportedEffects, "none".toList),
  (.supportedFocusModes, "auto".toList),
  (.videoSize, "352x288".toList),
  (.videoFrameFormat, yuv420sp),
  (.videoHighFrameRate, "off".toList),
  (.supportedVideoHighFrameRateModes, "off".toList),
  (.supportedHfrSizes, "352x288".toList),
  (.denoise, "off".toList),
  (.supportedDenoise, "off".toList),
  (.redeyeReduction, "disable".toList),
  (.supportedRedeyeReduction, "disable".toList),
  (.supportedVideoSizes, "352x288,320x240,176x144".toList),
  (.preferredPreviewSizeForVideo, "352x288".toList)]

def seedParameters (fw : Framework) : Params :=
  seeds.foldl (fun p kv => p.set fw kv.1 kv.2) (fun _ => none)

def copyParameterIfPresent (fw : Framework) (src dst : Params) (k : Key) : Params :=
  match src.get fw k with
  | some v => dst.set fw k v
  | none => dst

/-- The keys `sanitizeParameters` copies, in its order. -/
def sanitizedKeys : List Key := [
  .previewSize, .supportedPreviewSizes, .previewFormat, .supportedPreviewFormats,
  .previewFrameRate, .supportedPreviewFrameRates, .previewFpsRange, .supportedPreviewFpsRange,
  .previewFrameRateMode, .supportedPreviewFrameRateModes, .pictureSize, .supportedPictureSizes,
  .pictureFormat, .supportedPictureFormats, .jpegThumbnailWidth, .jpegThumbnailHeight,
  .jpegThumbnailQuality, .jpegQuality, .rotation, .focusMode, .supportedFocusModes, .whiteBalance,
  .supportedWhiteBalance, .antibanding, .zoom, .maxZoom, .zoomRatios, .zoomSupported, .videoSize,
  .videoFrameFormat, .supportedVideoSizes, .preferredPreviewSizeForVideo]

/-- The copies of a list of keys, one after the other. -/
def copyKeys (fw : Framework) (src dst : Params) (keys : List Key) : Params :=
  keys.foldl (copyParameterIfPresent fw src) dst

def sanitizeParameters (fw : Framework) (raw : Params) : Params :=
  copyKeys fw raw (seedParameters fw) sanitizedKeys

def isDelegatableParameterKey : Key → Bool
  | .previewSize | .pictureSize | .previewFormat | .pictureFormat | .jpegQuality | .rotation
  | .videoSize | .videoFrameFormat | .recordingHint => true
  | _ => false

/-- `kKeys` of `buildDelegatedParameters`. -/
def kKeys : List Key := [
  .previewSize, .pictureSize, .previewFormat, .pictureFormat, .jpegQuality, .rotation,
  .whiteBalance, .focusMode, .videoSize, .videoFrameFormat, .recordingHint]

def buildDelegatedParameters (fw : Framework) (input : Params) : Params :=
  copyKeys fw input (seedParameters fw) (kKeys.filter isDelegatableParameterKey)

/-! ## 3. The calls -/

/-- The wrapper: `isUsable`, and the cache if `mHasLastGoodParameters`. -/
structure Wrapper where
  usable : Bool
  lastGood : Option Params

inductive Status
  | noError
  | invalidOperation
  deriving DecidableEq, Repr

/-- A default for a key that is not there. -/
def withDefault (fw : Framework) (p : Params) (k : Key) (v : Value) : Params :=
  if p.get fw k = none then p.set fw k v else p

/-- `patched`. -/
def patchParameters (fw : Framework) (p : Params) : Params :=
  let p := withDefault fw p .previewSize size480x320
  let p := withDefault fw p .pictureSize size640x480
  let p := withDefault fw p .previewFormat yuv420sp
  withDefault fw p .pictureFormat jpeg

/-- 432x320 becomes 480x320. -/
def remapped (fw : Framework) (delegated p : Params) : Params :=
  if delegated.getPreviewSize fw = (432, 320) then p.set fw .previewSize size480x320 else p

/-- `setParameters` with the answers of `shouldDelegateSetParameters` and of the blob: the wrapper,
    the map that is sent to the blob, and the status. -/
def setParameters (fw : Framework) (delegate : Bool) (_rc : Int) (w : Wrapper) (p : Params) :
    Wrapper × Option Params × Status :=
  if w.usable then
    let safe := sanitizeParameters fw (patchParameters fw p)
    if delegate then
      let delegated := buildDelegatedParameters fw safe
      let sent := remapped fw delegated delegated
      let cache := remapped fw delegated safe
      -- an `rc` that is not `NO_ERROR` is only logged
      ({ w with lastGood := some cache }, some sent, .noError)
    else ({ w with lastGood := some safe }, none, .noError)
  else (w, none, .invalidOperation)

/-- `getParameters`: what is returned, and the wrapper, whose cache may be filled by it. -/
def getParameters (fw : Framework) (w : Wrapper) : Params × Wrapper :=
  match w.lastGood with
  | some cache => (cache, w)
  | none =>
    if w.usable then (seedParameters fw, { w with lastGood := some (seedParameters fw) })
    else (seedParameters fw, w)

/-! ## 4. Seeds and copies -/

variable {fw : Framework} {p src dst : Params} {k : Key} {v : Value}

theorem set_apply (k' : Key) (h : fw.settable v = true) :
    p.set fw k v k' = if k' = k then some v else p k' := by
  rw [Params.set, if_pos h, Function.update_apply]

/-- A map whose values are all there for `get` and taken by `set`. -/
def Clean (fw : Framework) (p : Params) : Prop := ∀ k v, p k = some v → fw.settable v ∧ v ≠ []

theorem Clean.get (h : Clean fw p) (k : Key) : p.get fw k = p k := by
  rw [Params.get]
  cases hv : p k with
  | none => exact fw.read_absent
  | some v => exact fw.read_value v (h k v hv).2

theorem get_ne_nil (h : p.get fw k = some v) : v ≠ [] := by
  rw [Params.get] at h
  cases hp : p k with
  | none =>
      rw [hp, fw.read_absent] at h
      cases h
  | some u =>
      by_cases hu : u = []
      · rw [hp, hu, fw.read_empty] at h
        cases h
      · rw [hp, fw.read_value u hu] at h
        exact Option.some.inj h ▸ hu

theorem Clean.set (h : Clean fw p) (hv : fw.settable v = true) (hne : v ≠ []) :
    Clean fw (p.set fw k v) := by
  intro k' v' hk'
  rw [set_apply k' hv] at hk'
  split at hk'
  · cases hk'
    exact ⟨hv, hne⟩
  · exact h k' v' hk'

/-- The seeds, whatever `set` refuses. -/
def seedMap : Params := seeds.foldl (fun p kv => Function.update p kv.1 (some kv.2)) (fun _ => none)

theorem seeds_plain : ∀ kv ∈ seeds, Plain kv.2 ∧ kv.2 ≠ [] := by decide

theorem foldl_set : ∀ (l : List (Key × Value)), (∀ kv ∈ l, fw.settable kv.2 = true) → ∀ p : Params,
    l.foldl (fun (p : Params) kv => p.set fw kv.1 kv.2) p =
      l.foldl (fun (p : Params) kv => Function.update p kv.1 (some kv.2)) p
  | [], _, _ => rfl
  | kv :: l, h, p => by
      rw [List.foldl_cons, List.foldl_cons, Params.set, if_pos (h kv List.mem_cons_self)]
      exact foldl_set l (fun kv' hkv' => h kv' (List.mem_cons_of_mem kv hkv')) _

theorem seedParameters_eq (fw : Framework) : seedParameters fw = seedMap :=
  foldl_set seeds (fun kv hkv => fw.settable_plain _ (seeds_plain kv hkv).1) _

theorem foldl_set_clean : ∀ (l : List (Key × Value)),
    (∀ kv ∈ l, fw.settable kv.2 = true ∧ kv.2 ≠ []) → ∀ p : Params, Clean fw p →
    Clean fw (l.foldl (fun p kv => p.set fw kv.1 kv.2) p)
  | [], _, _, hp => hp
  | kv :: l, h, p, hp => by
      rw [List.foldl_cons]
      obtain ⟨hset, hne⟩ := h kv List.mem_cons_self
      exact foldl_set_clean l (fun kv' hkv' => h kv' (List.mem_cons_of_mem kv hkv')) _
        (hp.set hset hne)

theorem seed_clean (fw : Framework) : Clean fw (seedParameters fw) := by
  refine foldl_set_clean seeds (fun kv hkv => ?_) _ (fun _ _ h => by cases h)
  obtain ⟨hplain, hne⟩ := seeds_plain kv hkv
  exact ⟨fw.settable_plain _ hplain, hne⟩

/-- What a copy takes from a map. -/
def taken (fw : Framework) (src : Params) (k : Key) : Option Value :=
  (src.get fw k).filter fw.settable

theorem Clean.taken (h : Clean fw src) (k : Key) : taken fw src k = src k := by
  rw [Camera.taken, h.get]
  cases hv : src k with
  | none => rfl
  | some v => exact Option.filter_some_pos (h k v hv).1

theorem taken_eq_some (h : taken fw src k = some v) : fw.settable v = true ∧ v ≠ [] := by
  obtain ⟨hget, hset⟩ := Option.filter_eq_some_iff.mp h
  exact ⟨hset, get_ne_nil hget⟩

theorem copyParameterIfPresent_apply (k' : Key) :
    copyParameterIfPresent fw src dst k k' =
      if k' = k then (taken fw src k).or (dst k') else dst k' := by
  unfold copyParameterIfPresent taken
  cases src.get fw k with
  | none => simp
  | some v =>
      cases hset : fw.settable v
      · rw [Option.filter_some_neg hset, Option.none_or, ite_self]
        exact congrFun (if_neg (Bool.eq_false_iff.mp hset)) k'
      · rw [Option.filter_some_pos hset, Option.some_or]
        exact set_apply k' hset

/-- **The copies of a list of keys.** -/
theorem copyKeys_apply : ∀ (keys : List Key) (dst : Params) (k : Key),
    copyKeys fw src dst keys k = if k ∈ keys then (taken fw src k).or (dst k) else dst k
  | [], dst, k => by simp [copyKeys]
  | k' :: keys, dst, k => by
      have hrest := copyKeys_apply keys (copyParameterIfPresent fw src dst k') k
      rw [copyKeys, List.foldl_cons, ← copyKeys, hrest, copyParameterIfPresent_apply]
      by_cases hk : k = k'
      · subst hk
        simp only [if_true, List.mem_cons, true_or]
        split
        · rw [← Option.or_assoc, Option.or_self]
        · rfl
      · simp only [hk, if_false, List.mem_cons, false_or]

theorem Clean.copyKeys {keys : List Key} (h : Clean fw dst) :
    Clean fw (copyKeys fw src dst keys) := by
  intro k v hv
  rw [copyKeys_apply] at hv
  split at hv
  · rcases Option.or_eq_some_iff.mp hv with htaken | ⟨-, hdst⟩
    · exact taken_eq_some htaken
    · exact h k v hdst
  · exact h k v hv

/-! ## 5. Maps that stay as they are -/

/-- A map as the cache holds it: `sanitizeParameters` has nothing to change in it. -/
structure Settled (fw : Framework) (p : Params) : Prop where
  clean : Clean fw p
  seeded : ∀ k, p k = none → seedParameters fw k = none
  rest : ∀ k, k ∉ sanitizedKeys → p k = seedParameters fw k

theorem sanitize_settled (fw : Framework) (p : Params) : Settled fw (sanitizeParameters fw p) where
  clean := (seed_clean fw).copyKeys
  seeded := fun k hk => by
    rw [sanitizeParameters, copyKeys_apply] at hk
    split at hk
    · exact (Option.or_eq_none_iff.mp hk).2
    · exact hk
  rest := fun k hk => by rw [sanitizeParameters, copyKeys_apply, if_neg hk]

theorem size480x320_settable (fw : Framework) : fw.settable size480x320 = true :=
  fw.settable_plain _ (by decide)

theorem Settled.remap (h : Settled fw p) : Settled fw (p.set fw .previewSize size480x320) where
  clean := h.clean.set (size480x320_settable fw) (by decide)
  seeded := fun k hk => by
    rw [set_apply k (size480x320_settable fw)] at hk
    split at hk
    · cases hk
    · exact h.seeded k hk
  rest := fun k hk => by
    have hne : k ≠ .previewSize := fun hk' => hk (hk' ▸ by decide)
    rw [set_apply k (size480x320_settable fw), if_neg hne, h.rest k hk]

theorem Settled.remapped (h : Settled fw p) (delegated : Params) :
    Settled fw (remapped fw delegated p) := by
  unfold Camera.remapped
  split
  · exact h.remap
  · exact h

theorem Settled.sanitize (h : Settled fw p) : sanitizeParameters fw p = p := by
  funext k
  rw [sanitizeParameters, copyKeys_apply]
  split
  · rw [h.clean.taken]
    cases hp : p k with
    | none => rw [Option.none_or, h.seeded k hp]
    | some v => rfl
  · next hk => exact (h.rest k hk).symm

theorem Settled.get_ne_none (h : Settled fw p) (hk : seedMap k ≠ none) : p.get fw k ≠ none := by
  rw [h.clean.get]
  intro hnone
  have hseed := h.seeded k hnone
  rw [seedParameters_eq] at hseed
  exact hk hseed

theorem withDefault_of_ne (v : Value) (h : p.get fw k ≠ none) : withDefault fw p k v = p := if_neg h

theorem Settled.patch (h : Settled fw p) : patchParameters fw p = p := by
  simp only [patchParameters]
  rw [withDefault_of_ne _ (h.get_ne_none (by decide)),
    withDefault_of_ne _ (h.get_ne_none (by decide)),
    withDefault_of_ne _ (h.get_ne_none (by decide)),
    withDefault_of_ne _ (h.get_ne_none (by decide))]

/-- What is delegated of a settled map: its own values for the delegatable keys, seeds else. -/
theorem Settled.delegated (h : Settled fw p) (k : Key) :
    buildDelegatedParameters fw p k =
      if isDelegatableParameterKey k then p k else seedParameters fw k := by
  have hmem : k ∈ kKeys.filter isDelegatableParameterKey ↔ isDelegatableParameterKey k = true := by
    rw [List.mem_filter]
    refine ⟨fun h => h.2, fun hk => ⟨?_, hk⟩⟩
    revert hk
    cases k <;> simp [isDelegatableParameterKey, kKeys]
  rw [buildDelegatedParameters, copyKeys_apply, h.clean.taken]
  simp only [hmem]
  split
  · cases hp : p k with
    | none => rw [Option.none_or, h.seeded k hp]
    | some v => rfl
  · rfl

theorem delegated_clean (fw : Framework) (p : Params) :
    Clean fw (buildDelegatedParameters fw p) :=
  (seed_clean fw).copyKeys

theorem Settled.delegated_previewSize (h : Settled fw p) :
    (buildDelegatedParameters fw p).getPreviewSize fw = p.getPreviewSize fw := by
  unfold Params.getPreviewSize
  have hdelegatable : isDelegatableParameterKey .previewSize = true := rfl
  rw [(delegated_clean fw p).get, h.clean.get, h.delegated, if_pos hdelegatable]

/-! ## 6. What reaches the blob -/

/-- The value a key is to reach the blob with. -/
def expected (fw : Framework) (k : Key) (v : Value) : Value :=
  if k = .previewSize ∧ fw.previewSize (some v) = (432, 320) then size480x320 else v

/-- On a usable wrapper with delegation: every delegatable key that has a value reaches the blob
    with it, and the preview size read afterwards is the one that was sent. -/
def Delivered (fw : Framework) (rc : Int) (cache : Option Params) (p : Params) : Prop :=
  ∃ w sent, setParameters fw true rc ⟨true, cache⟩ p = (w, some sent, .noError) ∧
    (∀ k, isDelegatableParameterKey k = true → ∀ v, p.get fw k = some v →
      sent.get fw k = some (expected fw k v)) ∧
    (getParameters fw w).1.get fw .previewSize = sent.get fw .previewSize

/-- The safe map of a call. -/
def safeOf (fw : Framework) (p : Params) : Params := sanitizeParameters fw (patchParameters fw p)

/-- The cache after a call with delegation. -/
def cacheOf (fw : Framework) (p : Params) : Params :=
  remapped fw (buildDelegatedParameters fw (safeOf fw p)) (safeOf fw p)

/-- The map sent by a call. -/
def sentOf (fw : Framework) (p : Params) : Params :=
  remapped fw (buildDelegatedParameters fw (safeOf fw p))
    (buildDelegatedParameters fw (safeOf fw p))

theorem withDefault_get {k' : Key} {v' : Value} (h : p.get fw k = some v) :
    (withDefault fw p k' v').get fw k = some v := by
  unfold withDefault
  split
  · next hnone =>
      have hne : k ≠ k' := fun hk => by rw [hk, hnone] at h; cases h
      rw [Params.get, Params.set]
      split
      · rw [Function.update_of_ne hne]
        exact h
      · exact h
  · exact h

theorem patch_get (h : p.get fw k = some v) : (patchParameters fw p).get fw k = some v := by
  simp only [patchParameters]
  exact withDefault_get (withDefault_get (withDefault_get (withDefault_get h)))

/-- A value that is there is safe if `set` takes it; else the seed stands in its place. -/
theorem safeOf_apply (hk : k ∈ sanitizedKeys) (h : p.get fw k = some v) :
    safeOf fw p k = if fw.settable v then some v else seedParameters fw k := by
  rw [safeOf, sanitizeParameters, copyKeys_apply, if_pos hk, taken, patch_get h]
  cases hset : fw.settable v
  · rw [Option.filter_some_neg hset, Option.none_or, if_neg Bool.false_ne_true]
  · rw [Option.filter_some_pos hset, Option.some_or, if_pos rfl]

theorem remapped_clean {delegated : Params} (h : Clean fw p) :
    Clean fw (remapped fw delegated p) := by
  unfold remapped
  split
  · exact h.set (size480x320_settable fw) (by decide)
  · exact h

theorem safeOf_settled (fw : Framework) (p : Params) : Settled fw (safeOf fw p) :=
  sanitize_settled fw _

theorem sentOf_get (fw : Framework) (p : Params) (k : Key) :
    (sentOf fw p).get fw k = sentOf fw p k :=
  (remapped_clean (delegated_clean fw _)).get k

theorem sentOf_apply (hk : isDelegatableParameterKey k = true) :
    sentOf fw p k =
      if k = .previewSize ∧ (safeOf fw p).getPreviewSize fw = (432, 320) then some size480x320
      else safeOf fw p k := by
  have hsettled := safeOf_settled fw p
  rw [sentOf, remapped, hsettled.delegated_previewSize]
  by_cases hsize : (safeOf fw p).getPreviewSize fw = (432, 320)
  · rw [if_pos hsize, set_apply k (size480x320_settable fw), hsettled.delegated, if_pos hk]
    simp only [hsize, and_true]
  · rw [if_neg hsize, if_neg (fun h => hsize h.2), hsettled.delegated, if_pos hk]

theorem getPreviewSize_eq (h : Clean fw p) (hv : p .previewSize = some v) :
    p.getPreviewSize fw = fw.previewSize (some v) := by
  rw [Params.getPreviewSize, h.get, hv]

theorem mem_sanitizedKeys (hk : isDelegatableParameterKey k = true) (hhint : k ≠ .recordingHint) :
    k ∈ sanitizedKeys := by
  revert hk hhint
  cases k <;> simp [isDelegatableParameterKey, sanitizedKeys]

/-- A value that `set` takes reaches the blob. -/
theorem sentOf_settable (hk : isDelegatableParameterKey k = true) (hhint : k ≠ .recordingHint)
    (h : p.get fw k = some v) (hset : fw.settable v = true) :
    sentOf fw p k = some (expected fw k v) := by
  have hsafe : safeOf fw p k = some v := by
    rw [safeOf_apply (mem_sanitizedKeys hk hhint) h, if_pos hset]
  rw [sentOf_apply hk, expected, hsafe]
  by_cases hpreview : k = .previewSize
  · subst hpreview
    rw [getPreviewSize_eq (safeOf_settled fw p).clean hsafe]
    split <;> rfl
  · rw [if_neg (fun h => hpreview h.1), if_neg (fun h => hpreview h.1)]

theorem seed_previewSize (fw : Framework) : seedParameters fw .previewSize = some size640x480 := by
  rw [seedParameters_eq]
  decide

/-- A value that `set` refuses does not. -/
theorem sentOf_refused (hk : isDelegatableParameterKey k = true) (hhint : k ≠ .recordingHint)
    (h : p.get fw k = some v) (hset : fw.settable v = false) :
    sentOf fw p k ≠ some (expected fw k v) := by
  have hsafe : safeOf fw p k = seedParameters fw k := by
    rw [safeOf_apply (mem_sanitizedKeys hk hhint) h, if_neg (Bool.eq_false_iff.mp hset)]
  have hseed : seedParameters fw k ≠ some v := fun hv => by
    have hset' := (seed_clean fw k v hv).1
    rw [hset] at hset'
    cases hset'
  rw [sentOf_apply hk, hsafe, expected]
  by_cases hpreview : k = .previewSize
  · subst hpreview
    rw [seed_previewSize] at hseed hsafe
    have hsize : ¬ (safeOf fw p).getPreviewSize fw = (432, 320) := by
      rw [getPreviewSize_eq (safeOf_settled fw p).clean hsafe, fw.previewSize_640x480]
      decide
    rw [if_neg (fun h => hsize h.2), seed_previewSize]
    split
    · decide
    · exact hseed
  · rw [if_neg (fun h => hpreview h.1), if_neg (fun h => hpreview h.1)]
    exact hseed

/-- The middle list does not have the hint, and there is no seed for it. -/
theorem sentOf_recordingHint (fw : Framework) (p : Params) : sentOf fw p .recordingHint = none := by
  have hne : ¬ (Key.recordingHint = .previewSize ∧ (safeOf fw p).getPreviewSize fw = (432, 320)) :=
    fun h => by cases h.1
  rw [sentOf_apply rfl, if_neg hne, (safeOf_settled fw p).rest _ (by decide), seedParameters_eq]
  decide

/-- The cached preview size is the one that is sent. -/
theorem cached_previewSize (fw : Framework) (p : Params) :
    (cacheOf fw p).get fw .previewSize = (sentOf fw p).get fw .previewSize := by
  have hsettled := safeOf_settled fw p
  rw [sentOf_get, sentOf_apply rfl, cacheOf, (remapped_clean hsettled.clean).get, remapped,
    hsettled.delegated_previewSize]
  by_cases hsize : (safeOf fw p).getPreviewSize fw = (432, 320)
  · rw [if_pos hsize, if_pos ⟨rfl, hsize⟩, set_apply _ (size480x320_settable fw), if_pos rfl]
  · rw [if_neg hsize, if_neg (fun h => hsize h.2)]

/-- **What reaches the blob**: all nine delegatable keys, just if there is no `recording-hint` and
    `set` takes the values of the other eight. -/
theorem delegated_iff (fw : Framework) (rc : Int) (cache : Option Params) (p : Params) :
    Delivered fw rc cache p ↔ p.get fw .recordingHint = none ∧
      ∀ k, isDelegatableParameterKey k = true → k ≠ .recordingHint → ∀ v, p.get fw k = some v →
        fw.settable v = true := by
  constructor
  · rintro ⟨w, sent, hcall, hsent, -⟩
    cases hcall
    refine ⟨?_, fun k hk hhint v hv => ?_⟩
    · cases hv : p.get fw .recordingHint with
      | none => rfl
      | some v =>
          have hreach : (sentOf fw p).get fw .recordingHint = _ := hsent .recordingHint rfl v hv
          rw [sentOf_get, sentOf_recordingHint] at hreach
          cases hreach
    · have hreach : (sentOf fw p).get fw k = _ := hsent k hk v hv
      rw [sentOf_get] at hreach
      by_contra hset
      exact sentOf_refused hk hhint hv (Bool.eq_false_iff.mpr hset) hreach
  · rintro ⟨hnone, hsettable⟩
    refine ⟨_, _, rfl, fun k hk v hv => ?_, cached_previewSize fw p⟩
    have hhint : k ≠ .recordingHint := fun h => by rw [h, hnone] at hv; cases hv
    exact (sentOf_get fw p k).trans (sentOf_settable hk hhint hv (hsettable k hk hhint v hv))

/-- A `set` that refuses every value a flattened map cannot hold. -/
def strict : Framework where
  settable v := decide (Plain v)
  settable_plain _ h := decide_eq_true h
  read v := v.filter (· ≠ [])
  read_absent := rfl
  read_empty := rfl
  read_value _ h := Option.filter_some_pos (decide_eq_true h)
  previewSize v := if v = some size640x480 then (640, 480) else
    if v = some size480x320 then (480, 320) else (-1, -1)
  previewSize_640x480 := if_pos rfl
  previewSize_480x320 := rfl

/-- A map with nothing but the hint that the application is about to record. -/
def hinted : Params := fun k => if k = .recordingHint then some "true".toList else none

theorem hint_lost :
    hinted.get strict .recordingHint = some "true".toList ∧
      isDelegatableParameterKey .recordingHint ∧
      (∃ w sent, setParameters strict true 0 ⟨true, none⟩ hinted = (w, some sent, .noError) ∧
        sent.get strict .recordingHint = none) ∧
      ¬ Delivered strict 0 none hinted := by
  have hhint : hinted.get strict .recordingHint = some "true".toList := by decide
  have hlost : (sentOf strict hinted).get strict .recordingHint = none := by
    rw [sentOf_get, sentOf_recordingHint]
  refine ⟨hhint, rfl, ⟨_, _, rfl, hlost⟩, ?_⟩
  rintro ⟨w, sent, hcall, hsent, -⟩
  cases hcall
  have hreach : (sentOf strict hinted).get strict .recordingHint = some _ :=
    hsent .recordingHint rfl _ hhint
  rw [hlost] at hreach
  cases hreach

/-! ## 7. Parameters written back -/

theorem remapped_remapped {delegated : Params} (h : Settled fw p)
    (hsize : delegated.getPreviewSize fw = p.getPreviewSize fw) :
    (remapped fw delegated p).getPreviewSize fw ≠ (432, 320) := by
  unfold remapped
  split
  · rw [getPreviewSize_eq h.remap.clean
      (by rw [set_apply _ (size480x320_settable fw), if_pos rfl]), fw.previewSize_480x320]
    decide
  · next hne => rwa [← hsize]

/-- A cache is what a call with it leaves. -/
theorem setParameters_settled {rc : Int} {w : Wrapper} (hw : w.usable = true) (h : Settled fw p)
    (hsize : p.getPreviewSize fw ≠ (432, 320)) :
    setParameters fw true rc w p =
      ({ w with lastGood := some p }, some (buildDelegatedParameters fw p), .noError) := by
  have hremap : ∀ p', remapped fw (buildDelegatedParameters fw p) p' = p' := fun p' => by
    rw [remapped, h.delegated_previewSize, if_neg hsize]
  simp only [setParameters, hw, if_true, h.patch, h.sanitize, hremap]

theorem delegated_remapped (h : Settled fw p) :
    buildDelegatedParameters fw (remapped fw (buildDelegatedParameters fw p) p) =
      remapped fw (buildDelegatedParameters fw p) (buildDelegatedParameters fw p) := by
  funext k
  rw [(h.remapped _).delegated, remapped, remapped]
  by_cases hsize : (buildDelegatedParameters fw p).getPreviewSize fw = (432, 320)
  · rw [if_pos hsize, if_pos hsize, set_apply k (size480x320_settable fw),
      set_apply k (size480x320_settable fw), h.delegated]
    by_cases hk : k = .previewSize
    · rw [hk, if_pos rfl, if_pos rfl]
      rfl
    · rw [if_neg hk, if_neg hk]
  · rw [if_neg hsize, if_neg hsize, h.delegated]

theorem getParameters_unusable {w : Wrapper} (hw : w.usable = false) :
    (getParameters fw w).2 = w := by
  unfold getParameters
  split
  · rfl
  · rw [if_neg (Bool.eq_false_iff.mp hw)]

theorem setParameters_unusable {delegate : Bool} {rc : Int} {w : Wrapper}
    (hw : w.usable = false) :
    setParameters fw delegate rc w p = (w, none, .invalidOperation) :=
  if_neg (Bool.eq_false_iff.mp hw)

/-- **Parameters read and written back change nothing**: the cache and the map for the blob are
    those of the first call, whatever the blob answers to either, with delegation or without, and
    on a wrapper that is not usable too. -/
theorem write_back_keeps (fw : Framework) (delegate : Bool) (rc rc' : Int) (w : Wrapper)
    (p : Params) :
    setParameters fw delegate rc' (getParameters fw (setParameters fw delegate rc w p).1).2
        (getParameters fw (setParameters fw delegate rc w p).1).1 =
      setParameters fw delegate rc w p := by
  have hsettled := safeOf_settled fw p
  cases hw : w.usable
  · rw [setParameters_unusable hw, getParameters_unusable hw, setParameters_unusable hw]
  · cases delegate
    · have hfirst : setParameters fw false rc w p =
          ({ w with lastGood := some (safeOf fw p) }, none, .noError) := by
        simp [setParameters, hw, safeOf]
      rw [hfirst]
      simp only [getParameters, setParameters, hw, if_true, hsettled.patch, hsettled.sanitize,
        Bool.false_eq_true, if_false]
    · have hfirst : setParameters fw true rc w p =
          ({ w with lastGood := some (cacheOf fw p) }, some (sentOf fw p), .noError) := by
        simp [setParameters, hw, safeOf, sentOf, cacheOf]
      rw [hfirst]
      -- the size in the cache is not remapped again, so the second call finds nothing to do
      have hsize : (cacheOf fw p).getPreviewSize fw ≠ (432, 320) :=
        remapped_remapped hsettled hsettled.delegated_previewSize
      have hsent : buildDelegatedParameters fw (cacheOf fw p) = sentOf fw p :=
        delegated_remapped hsettled
      have hcache : Settled fw (cacheOf fw p) := hsettled.remapped _
      have husable : (Wrapper.mk w.usable (some (cacheOf fw p))).usable = true := hw
      simp only [getParameters]
      rw [setParameters_settled husable hcache hsize, hsent]

end Y210.Camera
