import Mathlib.Data.Nat.Digits.Defs
import IsmDevice.Camera

/-!
# Blob names

Both back ends upload a capture as a blob named after the file.  `DirCamera` takes
what follows the last `/` of the path, and its arithmetic is right also without
one, since `npos + 1` is 0.  `Camera` starts at the `/` itself and takes no
account of `npos`, so that its name has the `/` in it or `substr` throws.
-/

namespace IsmDevice

/-- The text after the last `/`; the whole path where there is none. -/
def basename (filename : String) : Text := filename.toList.rtakeWhile (· ≠ '/')

/-- Both back ends name the blob of this file after its last `/`. -/
def NamedAlike (filename : String) : Prop :=
  Camera.blobname filename = some (String.ofList (basename filename)) ∧
    DirCamera.blobname filename = some (String.ofList (basename filename))

section Blobname

variable {filename : String}

theorem dirCamera_blobname (hfits : CppString.Fits filename.toList) :
    DirCamera.blobname filename = some (String.ofList (basename filename)) := by
  unfold DirCamera.blobname basename
  generalize filename.toList = f at hfits ⊢
  have hlength : f.length < 4294967295 := hfits
  have hsize := CppString.toNat_size (s := f)
  dsimp only
  by_cases hslash : '/' ∈ f
  · obtain ⟨pre, hpre, hlast⟩ := CppString.findLastOf_of_mem hslash
    have hle : pre.length < f.length := by
      rw [hpre, List.length_append, List.length_cons]
      omega
    have hpos : (CppString.findLastOf '/' f + 1).toNat = pre.length + 1 := by
      rw [UInt32.toNat_add, hlast, UInt32.toNat_one]
      omega
    have hcount : (CppString.size f - CppString.findLastOf '/' f).toNat =
        f.length - pre.length := by
      rw [UInt32.toNat_sub, hsize, hlast]
      omega
    rw [CppString.substr_rest (by omega) (by omega), hpos]
    conv => lhs; rw [hpre]
    simp
  · -- `npos + 1` is 0, and the count is one more than the size
    have hcount : (CppString.size f - CppString.npos).toNat = f.length + 1 := by
      rw [UInt32.toNat_sub, hsize, CppString.toNat_npos]
      omega
    have hpos : (CppString.npos + 1).toNat = 0 := by decide
    rw [CppString.findLastOf_of_notMem hslash, CppString.rtakeWhile_of_notMem hslash,
      CppString.substr_rest (by omega) (by omega), hpos]
    rfl

theorem camera_blobname_of_notMem (hfits : CppString.Fits filename.toList)
    (hslash : '/' ∉ filename.toList) : Camera.blobname filename = none := by
  unfold Camera.blobname
  dsimp only
  rw [CppString.findLastOf_of_notMem hslash, CppString.substr_of_lt hfits]
  rfl

/-- With the `/`, or with a start past the end, what `Camera` takes has never the
    length of the name. -/
theorem camera_blobname_ne :
    Camera.blobname filename ≠ some (String.ofList (basename filename)) := by
  unfold Camera.blobname basename
  generalize filename.toList = f
  intro h
  obtain ⟨name, hname, hbase⟩ := Option.map_eq_some_iff.mp h
  rw [String.ofList_inj] at hbase
  have hsize := CppString.toNat_size (s := f)
  rw [CppString.substr] at hname
  split at hname
  case isFalse => exact absurd hname (by simp)
  case isTrue hle =>
    have hlength := congrArg List.length (Option.some.inj hname)
    rw [List.length_take, List.length_drop, hbase, UInt32.toNat_sub, hsize] at hlength
    by_cases hslash : '/' ∈ f
    · obtain ⟨pre, hpre, hlast⟩ := CppString.findLastOf_of_mem hslash
      have hsplit := congrArg List.length hpre
      rw [List.length_append, List.length_cons] at hsplit
      rw [hlast] at hlength hle
      omega
    · rw [CppString.findLastOf_of_notMem hslash, CppString.toNat_npos] at hlength hle
      rw [CppString.rtakeWhile_of_notMem hslash] at hlength
      omega

end Blobname

/-! ### The files of a `Camera` -/

theorem notMem_captureFilename (time : Int) : '/' ∉ (Camera.captureFilename time).toList := by
  unfold Camera.captureFilename
  rw [String.toList_append, String.toList_append, List.mem_append, List.mem_append]
  rintro ((h | h) | h)
  · exact absurd h (by decide)
  · exact Json.notMem_toString_int (by decide) (by decide) h
  · exact absurd h (by decide)

theorem length_toString_le {n : Int} (h : n.natAbs < 10 ^ 20) : (toString n).length ≤ 21 := by
  cases n with
  | ofNat m => exact Nat.le_succ_of_le (Nat.repr_length m 20 (by decide) h)
  | negSucc m =>
    have hdigits := Nat.repr_length (m + 1) 20 (by decide) h
    show ("-" ++ Nat.repr (m + 1)).length ≤ 21
    rw [String.length_append, show "-".length = 1 from rfl]
    omega

theorem fits_captureFilename (time : Int64) :
    CppString.Fits (Camera.captureFilename time.toInt).toList := by
  have hlow := time.le_toInt
  have hhigh := time.toInt_lt
  have hdigits := length_toString_le (n := time.toInt) (by omega)
  rw [CppString.Fits, String.length_toList, Camera.captureFilename, String.length_append,
    String.length_append, CppString.toNat_npos, show "capture".length = 7 from rfl,
    show ".jpg".length = 4 from rfl]
  omega

/-- **Blob names agree for no file**: what `Camera` computes is never the name that
    `DirCamera` computes, and of the file of a frame it computes none, so that its
    upload is not reached. -/
theorem blobname_never_alike (filename : String) (time : Int64) :
    ¬ NamedAlike filename ∧ Camera.blobname (Camera.captureFilename time.toInt) = none := by
  constructor
  · rintro ⟨hcamera, -⟩
    exact camera_blobname_ne hcamera
  · exact camera_blobname_of_notMem (fits_captureFilename time) (notMem_captureFilename _)

/-- A capture of the IDS camera. -/
theorem blobname_capture : ¬ NamedAlike "capture1483228800.jpg" := by
  intro h
  exact absurd h.1 (by decide)

end IsmDevice
