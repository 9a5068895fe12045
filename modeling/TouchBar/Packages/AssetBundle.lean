import TouchBar.Lib.Cursor
import TouchBar.Schema.Totality

/-!
# Bundles of assets

The assets of a package travel to the host of a component in one buffer: a magic number, the
number of assets, and for each its identifier and its bytes with their lengths in front.  The
decoder keeps the buffer and an offset into it.  It accepts a buffer exactly if the encoder
writes it, and then returns what was encoded.
-/

namespace TouchBar.Packages

open TouchBar.Rust TouchBar.Lib Outcome

namespace AssetBundle

def magic : List UInt8 := Schema.magicOf "OTBAS001"

def maxAssets : ℕ := 64

def maxAssetFileBytes : ℕ := 1024 * 1024

def maxAssetBundleBytes : ℕ := 8 * 1024 * 1024

def maxAssetIdBytes : ℕ := 64

structure BundledAsset where
  id : String
  bytes : List UInt8
deriving DecidableEq

structure AssetBundleError where
  message : String
deriving DecidableEq

/-! ## Encoding -/

/-- The loop of `encode_asset_bundle`, with the identifiers and the output so far. -/
def encodeAssets (ids : BTreeSet String) (output : List UInt8) :
    List BundledAsset → Outcome AssetBundleError (List UInt8)
  | [] => ok output
  | asset :: assets =>
    if Text.isEmpty asset.id || maxAssetIdBytes < Text.len asset.id then
      err ⟨"asset bundle ID is not bounded"⟩
    else if ids.contains asset.id then err ⟨"asset bundle contains a duplicate ID"⟩
    else if maxAssetFileBytes < asset.bytes.length then
      err ⟨"encoded asset exceeds its size limit"⟩
    else if 2 ^ 16 ≤ Text.len asset.id then err ⟨"asset bundle ID length overflow"⟩
    else if 2 ^ 32 ≤ asset.bytes.length then err ⟨"encoded asset length overflow"⟩
    else
      let output := output ++ leBytes 2 (Text.len asset.id) ++ Text.asBytes asset.id ++
        leBytes 4 asset.bytes.length ++ asset.bytes
      if maxAssetBundleBytes < output.length then err ⟨"asset bundle exceeds its size limit"⟩
      else encodeAssets (ids.insert asset.id) output assets

def encodeAssetBundle (assets : List BundledAsset) : Outcome AssetBundleError (List UInt8) :=
  if maxAssets < assets.length then err ⟨"asset bundle contains too many assets"⟩
  else encodeAssets .empty (magic ++ leBytes 4 assets.length) assets

/-! ## Decoding -/

/-- `Input`, over a buffer that has passed the check of its size. -/
abbrev Input : Type := Cursor UInt8 maxAssetBundleBytes

/-- A method of `Input`, or a part of the decoder. -/
abbrev InputM (α : Type) : Type := StateT Input (Outcome AssetBundleError) α

namespace Input

def take (length : ℕ) : InputM (List UInt8) :=
  Cursor.take ⟨"asset bundle length overflow"⟩ ⟨"asset bundle is truncated"⟩ (2 ^ 64) length

/-- `bytes[i]`. -/
def index (bytes : List UInt8) (i : ℕ) : InputM UInt8 := fun input =>
  (Outcome.check bytes[i]?) >>= fun byte => ok (byte, input)

def u16 : InputM ℕ := do
  let bytes ← take 2
  let b0 ← index bytes 0
  let b1 ← index bytes 1
  return leValue [b0, b1]

def u32 : InputM ℕ := do
  let bytes ← take 4
  let b0 ← index bytes 0
  let b1 ← index bytes 1
  let b2 ← index bytes 2
  let b3 ← index bytes 3
  return leValue [b0, b1, b2, b3]

end Input

def fail {α : Type} (message : String) : InputM α := fun _ => err ⟨message⟩

/-- `str::from_utf8`. -/
def fromUtf8 (value : List UInt8) : InputM String :=
  match String.fromUTF8? ⟨value.toArray⟩ with
  | some text => pure text
  | none => fail "asset bundle ID is not UTF-8"

/-- The loop of `decode_asset_bundle`, with the identifiers so far. -/
def decodeAssets (ids : BTreeSet String) : ℕ → InputM (List BundledAsset)
  | 0 => return []
  | count + 1 => do
    let idLength ← Input.u16
    if idLength = 0 ∨ maxAssetIdBytes < idLength then fail "asset bundle ID is not bounded"
    else
      let value ← Input.take idLength
      let id ← fromUtf8 value
      if ids.contains id = true then fail "asset bundle contains a duplicate ID"
      else
        let byteLength ← Input.u32
        if maxAssetFileBytes < byteLength then fail "encoded asset exceeds its size limit"
        else
          let bytes ← Input.take byteLength
          let assets ← decodeAssets (ids.insert id) count
          return ⟨id, bytes⟩ :: assets

/-- What `decode_asset_bundle` does after the check of the size, but for the last check. -/
def decodeFields : InputM (List BundledAsset) := do
  let found ← Input.take magic.length
  if found ≠ magic then fail "asset bundle magic is invalid"
  else
    let count ← Input.u32
    if maxAssets < count then fail "asset bundle contains too many assets"
    else decodeAssets .empty count

def decodeAssetBundle (bytes : List UInt8) : Outcome AssetBundleError (List BundledAsset) :=
  if h : bytes.length ≤ maxAssetBundleBytes then do
    let (assets, input) ← decodeFields ⟨bytes, 0, h, Nat.zero_le _⟩
    if input.offset ≠ bytes.length then err ⟨"asset bundle has trailing bytes"⟩ else ok assets
  else err ⟨"asset bundle exceeds its size limit"⟩

/-! ## What is written -/

/-- An asset within the limits of both loops. -/
structure BundledAsset.Valid (asset : BundledAsset) : Prop where
  id_pos : 0 < Text.len asset.id
  id_le : Text.len asset.id ≤ maxAssetIdBytes
  bytes_le : asset.bytes.length ≤ maxAssetFileBytes

/-- The bytes of an asset. -/
def BundledAsset.write (asset : BundledAsset) : List UInt8 :=
  leBytes 2 (Text.len asset.id) ++ Text.asBytes asset.id ++
    leBytes 4 asset.bytes.length ++ asset.bytes

/-- The assets that fit into a bundle. -/
structure Fits (assets : List BundledAsset) : Prop where
  count : assets.length ≤ maxAssets
  valid : ∀ asset ∈ assets, asset.Valid
  nodup : (assets.map BundledAsset.id).Nodup

/-- The bytes of a bundle. -/
def bundleBytes (assets : List BundledAsset) : List UInt8 :=
  magic ++ (leBytes 4 assets.length ++ assets.flatMap BundledAsset.write)

/-- One turn of either loop. -/
abbrev Item := Schema.UniqueItem BundledAsset.id BundledAsset.Valid BundledAsset.write

variable {input rest bytes : List UInt8}

lemma isEmpty_iff_len {s : String} : Text.isEmpty s = true ↔ Text.len s = 0 := by
  rw [Text.isEmpty, Text.len, List.isEmpty_iff, String.utf8ByteSize_eq_zero_iff,
    String.toList_eq_nil_iff]

lemma written_of_encodeAssets {ids : BTreeSet String} {output : List UInt8}
    {assets : List BundledAsset} (hle : output.length ≤ maxAssetBundleBytes) :
    encodeAssets ids output assets = ok bytes ↔
      ∃ written, Written Item ids assets written ∧ bytes = output ++ written ∧
        bytes.length ≤ maxAssetBundleBytes := by
  induction assets generalizing ids output with
  | nil =>
    simp only [encodeAssets, Outcome.ok.injEq, written_nil_iff]
    constructor
    · rintro rfl
      exact ⟨[], rfl, (List.append_nil _).symm, hle⟩
    · rintro ⟨_, rfl, rfl, -⟩
      exact (List.append_nil _).symm
  | cons asset assets ih =>
    simp only [encodeAssets, ite_err_eq_ok, Bool.or_eq_true, decide_eq_true_eq, not_or, not_lt,
      isEmpty_iff_len, written_cons_iff]
    constructor
    · rintro ⟨⟨hpos, hid⟩, hnew, hbytes, -, -, hlimit, hrest⟩
      obtain ⟨written, hwritten, rfl, hlength⟩ := (ih hlimit).mp hrest
      refine ⟨asset.write ++ written, ⟨_, asset.write, written, ?_, hwritten, rfl⟩, ?_, hlength⟩
      · exact ⟨eq_false_of_ne_true hnew, rfl, ⟨Nat.pos_of_ne_zero hpos, hid, hbytes⟩, rfl⟩
      · simp only [BundledAsset.write, List.append_assoc]
    · rintro ⟨_, ⟨_, _, written, ⟨hnew, rfl, hvalid, rfl⟩, hwritten, rfl⟩, rfl, hlength⟩
      have hid := hvalid.id_le
      have hbytes := hvalid.bytes_le
      have hassoc : output ++ (asset.write ++ written) =
          (output ++ leBytes 2 (Text.len asset.id) ++ Text.asBytes asset.id ++
            leBytes 4 asset.bytes.length ++ asset.bytes) ++ written := by
        simp only [BundledAsset.write, List.append_assoc]
      rw [hassoc] at hlength
      -- what is written up to here is shorter than the whole
      have hlimit := hlength
      rw [List.length_append] at hlimit
      refine ⟨⟨hvalid.id_pos.ne', hid⟩, ne_true_of_eq_false hnew, hbytes, ?_, ?_, by omega,
        (ih (by omega)).mpr ⟨written, hwritten, hassoc, by rw [hassoc]; exact hlength⟩⟩
      · simp only [maxAssetIdBytes] at hid
        omega
      · simp only [maxAssetFileBytes] at hbytes
        omega

lemma length_header (assets : List BundledAsset) :
    (magic ++ leBytes 4 assets.length).length = 12 := by
  rw [List.length_append, leBytes_length]
  rfl

theorem encodeAssetBundle_eq_ok {assets : List BundledAsset} :
    encodeAssetBundle assets = ok bytes ↔
      Fits assets ∧ bytes = bundleBytes assets ∧ bytes.length ≤ maxAssetBundleBytes := by
  have hheader : (magic ++ leBytes 4 assets.length).length ≤ maxAssetBundleBytes := by
    rw [length_header]
    decide
  rw [encodeAssetBundle, ite_err_eq_ok, not_lt, written_of_encodeAssets hheader]
  constructor
  · rintro ⟨hcount, written, hwritten, hbytes, hlength⟩
    obtain ⟨hvalid, hnodup, rfl⟩ := Schema.written_unique_iff.mp hwritten
    rw [List.append_assoc] at hbytes
    exact ⟨⟨hcount, fun asset hasset => (hvalid asset hasset).1, hnodup⟩, hbytes, hlength⟩
  · rintro ⟨hfits, rfl, hlength⟩
    refine ⟨hfits.count, _, Schema.written_unique_iff.mpr ⟨?_, hfits.nodup, rfl⟩, ?_, hlength⟩
    · exact fun asset hasset => ⟨hfits.valid asset hasset, BTreeSet.notMem_empty⟩
    · rw [bundleBytes, List.append_assoc]

/-! ## What is read -/

namespace Reading

/-- A number of `width` bytes. -/
def number (width : ℕ) : Reader AssetBundleError UInt8 ℕ :=
  leValue <$> Reader.front ⟨"asset bundle is truncated"⟩ width

/-- The loop over the assets, on the bytes that remain. -/
def assets (ids : BTreeSet String) : ℕ → Reader AssetBundleError UInt8 (List BundledAsset)
  | 0 => pure []
  | count + 1 => do
    let idLength ← number 2
    if idLength = 0 ∨ maxAssetIdBytes < idLength then
      Reader.reject ⟨"asset bundle ID is not bounded"⟩
    else
      let value ← Reader.front ⟨"asset bundle is truncated"⟩ idLength
      let id ← Reader.utf8 ⟨"asset bundle ID is not UTF-8"⟩ value
      if ids.contains id = true then Reader.reject ⟨"asset bundle contains a duplicate ID"⟩
      else
        let byteLength ← number 4
        if maxAssetFileBytes < byteLength then
          Reader.reject ⟨"encoded asset exceeds its size limit"⟩
        else
          let bytes ← Reader.front ⟨"asset bundle is truncated"⟩ byteLength
          let rest ← assets (ids.insert id) count
          return ⟨id, bytes⟩ :: rest

/-- The fields of a bundle, on the bytes that remain. -/
def fields : Reader AssetBundleError UInt8 (List BundledAsset) := do
  let found ← Reader.front ⟨"asset bundle is truncated"⟩ magic.length
  if found ≠ magic then Reader.reject ⟨"asset bundle magic is invalid"⟩
  else
    let count ← number 4
    if maxAssets < count then Reader.reject ⟨"asset bundle contains too many assets"⟩
    else assets .empty count

lemma number_eq_ok {width n : ℕ} :
    number width input = ok (n, rest) ↔ n < 256 ^ width ∧ input = leBytes width n ++ rest :=
  leValue_map_eq_ok fun _ _ _ => Reader.front_eq_ok

lemma assets_eq_ok {ids : BTreeSet String} {count : ℕ} {found : List BundledAsset} :
    assets ids count input = ok (found, rest) ↔
      found.length = count ∧ ∃ bytes, Written Item ids found bytes ∧ input = bytes ++ rest := by
  refine read_loop_exact (fun _ => rfl) ?_
  intro ids count input found rest
  simp only [assets, Reader.bind_eq_ok, number_eq_ok, Reader.ite_eq_ok, Reader.front_eq_ok,
    Reader.utf8_eq_ok, Reader.pure_eq_ok, not_or, not_lt, Bool.not_eq_true]
  constructor
  · rintro ⟨_, _, ⟨-, rfl⟩, ⟨hpos, hid⟩, _, _, ⟨rfl, rfl⟩, id, _, ⟨rfl, rfl⟩, hnew, _, _, ⟨-, rfl⟩,
      hbytes, bytes, mid, ⟨rfl, rfl⟩, tail, _, htail, rfl, rfl⟩
    refine ⟨⟨id, bytes⟩, _, _, mid, tail, ⟨hnew, rfl, ⟨?_, hid, hbytes⟩, rfl⟩, ?_, htail, rfl⟩
    · exact Nat.pos_of_ne_zero hpos
    · simp only [BundledAsset.write, Text.length_asBytes, List.append_assoc]
  · rintro ⟨asset, _, _, mid, tail, ⟨hnew, rfl, hvalid, rfl⟩, rfl, htail, rfl⟩
    have hid := hvalid.id_le
    have hbytes := hvalid.bytes_le
    refine ⟨Text.len asset.id, _, ⟨?_, ?_⟩, ⟨hvalid.id_pos.ne', hid⟩, Text.asBytes asset.id, _,
      ⟨rfl, rfl⟩, asset.id, _, ⟨rfl, rfl⟩, hnew, asset.bytes.length, _, ⟨?_, rfl⟩, hbytes,
      asset.bytes, mid, ⟨rfl, rfl⟩, tail, rest, htail, rfl, rfl⟩
    · simp only [maxAssetIdBytes] at hid
      omega
    · simp only [BundledAsset.write, List.append_assoc]
    · simp only [maxAssetFileBytes] at hbytes
      omega

lemma fields_eq_ok {found : List BundledAsset} :
    fields input = ok (found, rest) ↔ Fits found ∧ input = bundleBytes found ++ rest := by
  simp only [fields, Reader.bind_eq_ok, Reader.front_eq_ok, Reader.ite_eq_ok, not_not,
    number_eq_ok, not_lt, assets_eq_ok, Schema.written_unique_iff]
  constructor
  · rintro ⟨_, _, ⟨-, rfl⟩, rfl, _, _, ⟨-, rfl⟩, hcount, rfl, _, ⟨hvalid, hnodup, rfl⟩, rfl⟩
    refine ⟨⟨hcount, fun asset hasset => (hvalid asset hasset).1, hnodup⟩, ?_⟩
    simp only [bundleBytes, List.append_assoc]
  · rintro ⟨hfits, rfl⟩
    have hcount := hfits.count
    refine ⟨magic, _, ⟨rfl, ?_⟩, rfl, found.length, _, ⟨?_, rfl⟩, hcount, rfl, _, ⟨?_, hfits.nodup,
      rfl⟩, rfl⟩
    · simp only [bundleBytes, List.append_assoc]
    · simp only [maxAssets] at hcount
      omega
    · exact fun asset hasset => ⟨hfits.valid asset hasset, BTreeSet.notMem_empty⟩

/-! Reading on does not panic. -/

open Reader

lemma total_front {e : AssetBundleError} {n : ℕ} :
    Total (front e n : Reader AssetBundleError UInt8 _) :=
  fun _ => ite_ne_panic (by simp) (by simp)

lemma total_utf8 {e : AssetBundleError} {value : List UInt8} :
    Total (utf8 e value : Reader AssetBundleError UInt8 _) := by
  rw [utf8]
  split
  · exact total_pure _
  · exact total_reject _

lemma total_assets (ids : BTreeSet String) (count : ℕ) : Total (assets ids count) := by
  induction count generalizing ids with
  | zero => exact total_pure _
  | succ count ih =>
    refine total_bind (total_map total_front) fun _ => total_ite (total_reject _) ?_
    refine total_bind total_front fun _ => total_bind total_utf8 fun id => ?_
    refine total_ite (total_reject _) ?_
    refine total_bind (total_map total_front) fun _ => total_ite (total_reject _) ?_
    exact total_bind total_front fun _ => total_bind (ih _) fun _ => total_pure _

lemma total_fields : Total fields := by
  refine total_bind total_front fun _ => total_ite (total_reject _) ?_
  exact total_bind (total_map total_front) fun _ => total_ite (total_reject _) (total_assets _ _)

end Reading

/-! ## The decoder follows the reading -/

open Cursor

lemma follows_inputTake {length : ℕ} (h : length < 2 ^ 32) :
    Follows (Input.take length) (Reader.front ⟨"asset bundle is truncated"⟩ length) := by
  refine follows_take ?_
  simp only [maxAssetBundleBytes]
  omega

lemma length_of_inputTake {length : ℕ} (h : length < 2 ^ 32) {c c' : Input}
    {value : List UInt8} (hc : Input.take length c = ok (value, c')) : value.length = length := by
  have hview := (follows_inputTake h).view_eq c
  rw [hc] at hview
  exact (Reader.front_eq_ok.mp hview.symm).1

/-- The indices of a word lie inside the bytes that were taken for it. -/
lemma follows_u16 : Follows Input.u16 (Reading.number 2) := by
  refine (follows_inputTake (by decide)).map fun c value c' hc => ?_
  obtain ⟨b0, b1, rfl⟩ := List.length_eq_two.mp (length_of_inputTake (by decide) hc)
  rfl

lemma follows_u32 : Follows Input.u32 (Reading.number 4) := by
  refine (follows_inputTake (by decide)).map fun c value c' hc => ?_
  have hlength := length_of_inputTake (by decide) hc
  rcases value with _ | ⟨b0, _ | ⟨b1, _ | ⟨b2, _ | ⟨b3, _ | ⟨b4, value⟩⟩⟩⟩⟩
  all_goals first | rfl | simp at hlength

lemma follows_fromUtf8 (value : List UInt8) :
    Follows (fromUtf8 value) (Reader.utf8 ⟨"asset bundle ID is not UTF-8"⟩ value) := by
  rw [fromUtf8, Reader.utf8]
  cases String.fromUTF8? ⟨value.toArray⟩ with
  | none => exact follows_reject _
  | some text => exact follows_pure text

lemma follows_decodeAssets (ids : BTreeSet String) (count : ℕ) :
    Follows (decodeAssets ids count) (Reading.assets ids count) := by
  induction count generalizing ids with
  | zero => exact follows_pure []
  | succ count ih =>
    rw [decodeAssets, Reading.assets]
    refine follows_u16.bind fun idLength => .guard (fun _ => follows_reject _) fun hid => ?_
    have hid : idLength < 2 ^ 32 := by
      rw [not_or, not_lt, maxAssetIdBytes] at hid
      omega
    refine (follows_inputTake hid).bind fun value => (follows_fromUtf8 value).bind fun id => ?_
    refine .guard (fun _ => follows_reject _) fun _ => ?_
    refine follows_u32.bind fun byteLength => .guard (fun _ => follows_reject _) fun hbytes => ?_
    have hbytes : byteLength < 2 ^ 32 := by
      rw [not_lt, maxAssetFileBytes] at hbytes
      omega
    exact (follows_inputTake hbytes).bind fun bytes =>
      (ih _).bind fun assets => follows_pure _

lemma follows_decodeFields : Follows decodeFields Reading.fields := by
  refine (follows_inputTake (by decide)).bind fun found => ?_
  refine .guard (fun _ => follows_reject _) fun _ => follows_u32.bind fun count => ?_
  exact .guard (fun _ => follows_reject _) fun _ => follows_decodeAssets _ _

theorem decodeAssetBundle_eq_ok {assets : List BundledAsset} :
    decodeAssetBundle bytes = ok assets ↔
      Fits assets ∧ bytes = bundleBytes assets ∧ bytes.length ≤ maxAssetBundleBytes := by
  rw [decodeAssetBundle]
  split_ifs with hlength
  · simp only [Outcome.bind_eq_ok, Prod.exists, ite_err_eq_ok, not_not, Outcome.ok.injEq,
      hlength, and_true]
    have hview := follows_decodeFields.view_eq ⟨bytes, 0, hlength, Nat.zero_le _⟩
    constructor
    · rintro ⟨found, input, hdecode, hend, rfl⟩
      rw [hdecode] at hview
      obtain ⟨hfits, hbytes⟩ := Reading.fields_eq_ok.mp hview.symm
      -- nothing remains at the end
      have hsame : input.bytes = bytes := follows_decodeFields.bytes_eq _ _ _ hdecode
      rw [← hsame, offset_eq_length_iff] at hend
      rw [hend, List.append_nil] at hbytes
      exact ⟨hfits, hbytes⟩
    · rintro ⟨hfits, hbytes⟩
      have hread : Reading.fields bytes = ok (assets, []) :=
        Reading.fields_eq_ok.mpr ⟨hfits, by rw [List.append_nil, ← hbytes]⟩
      obtain ⟨input, hdecode, hrest⟩ := view_eq_ok.mp (hview.trans hread)
      refine ⟨assets, input, hdecode, ?_, rfl⟩
      rw [← offset_eq_length_iff, follows_decodeFields.bytes_eq _ _ _ hdecode] at hrest
      exact hrest
  · exact iff_of_false (by simp) fun h => hlength h.2.2

lemma decodeAssetBundle_ne_panic : decodeAssetBundle bytes ≠ panic := by
  rw [decodeAssetBundle]
  split_ifs with hlength
  · refine bind_ne_panic.mpr ⟨fun hpanic => ?_, fun found _ => ite_ne_panic (by simp) (by simp)⟩
    have hview := follows_decodeFields.view_eq ⟨bytes, 0, hlength, Nat.zero_le _⟩
    rw [hpanic] at hview
    exact Reading.total_fields _ hview.symm
  · simp

/-- Encoding and decoding undo each other, and a buffer that is not the encoding of any assets
is rejected: no index of the decoder leaves the buffer. -/
theorem codec_exact :
    (∀ assets bytes, encodeAssetBundle assets = ok bytes → decodeAssetBundle bytes = ok assets) ∧
      (∀ bytes assets, decodeAssetBundle bytes = ok assets →
        encodeAssetBundle assets = ok bytes) ∧
      ∀ bytes, (∀ assets, encodeAssetBundle assets ≠ ok bytes) →
        ∃ e, decodeAssetBundle bytes = err e := by
  have hiff : ∀ assets bytes,
      encodeAssetBundle assets = ok bytes ↔ decodeAssetBundle bytes = ok assets :=
    fun assets bytes => encodeAssetBundle_eq_ok.trans decodeAssetBundle_eq_ok.symm
  refine ⟨fun assets bytes => (hiff assets bytes).mp, fun bytes assets => (hiff assets bytes).mpr,
    fun bytes hnone => ?_⟩
  rcases hdecode : decodeAssetBundle bytes with assets | e | _
  · exact absurd ((hiff assets bytes).mpr hdecode) (hnone assets)
  · exact ⟨e, rfl⟩
  · exact absurd hdecode decodeAssetBundle_ne_panic

end AssetBundle

end TouchBar.Packages
