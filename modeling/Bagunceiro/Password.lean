/-
# Password -- the password that is set is not the password that is asked for

`auth_conf` compares the SHA-256 digest of what was typed with the first bytes
of the stored record, and the command line tool stores a digest.  `save_config`
stores the password itself.  So a password set through the configuration form
is accepted only where it happens to be its own digest (`storedDigest`), and
then exactly where digests tell passwords apart.
-/
import Mathlib.Data.Set.Function
import Bagunceiro.Conf

namespace Bagunceiro

open Effect

set_option autoImplicit false

/-- The bytes `auth_conf` takes for the digest after `save_config` stored `p`. -/
def storedDigest (p : Bytes) (past : Nat → UInt8) : Bytes :=
  readMemory (p ++ [0]) past sha256DigestLength

/-- A non-empty password is stored as it was typed, with its terminator. -/
theorem findAll_confPass_saved (clk : Nat → Taia) {conf : Blog} (some_ : cstr conf.qry.pass ≠ [])
    (old : List Record) :
    findAll (some (batchResult [] clk (saveChanges conf) old)) confPass =
      [cstr conf.qry.pass ++ [0]] := by
  have member : Change.rep confPass (cstr conf.qry.pass ++ [0]) ∈ saveChanges conf := by
    simp [saveChanges, some_]
  have values := findAll_batchResult_of_mem clk member (posed_saveChanges conf old).distinct old
  simpa [Change.key, Change.onValues, Change.keepsValue, Change.adds] using values

/-- After a successful save the checker compares digests with `storedDigest`. -/
theorem exec_authConf_saved (sha256 : Bytes → Bytes) (past : Nat → UInt8) (clk : Nat → Taia)
    {conf : Blog} (some_ : cstr conf.qry.pass ≠ []) {fs : Fs} {old : List Record}
    (holds : fs.content confDb = some (.finished (batchResult [] clk (saveChanges conf) old)))
    (q : Bytes) :
    exec (authConf sha256 past q) fs =
      (.ok (decide (storedDigest (cstr conf.qry.pass) past = sha256 q)), fs) := by
  have matched : passwordMatches (some (batchResult [] clk (saveChanges conf) old)) past
      (sha256 q) = decide (storedDigest (cstr conf.qry.pass) past = sha256 q) := by
    rw [passwordMatches, findAll_confPass_saved clk some_ old]
    simp only [List.flatten_cons, List.flatten_nil, List.append_nil, ne_eq, reduceCtorEq,
      not_false_eq_true, decide_true, Bool.true_and]
    rfl
  rw [exec_authConf sha256 past q holds]
  exact congrArg (fun b => (Except.ok b, fs)) matched

/-- **When a password set through the form works.**  On strings that SHA-256
tells apart, `auth_conf` accepts exactly the saved password if and only if the
stored bytes are that password's digest. -/
theorem authConf_saved_iff (sha256 : Bytes → Bytes) (compared : Set Bytes) (past : Nat → UInt8)
    (memory : Nat → Slot) (clk : Nat → Taia) (conf saved : Blog) (fs : Fs) (old : List Record)
    (holds : fs.content confDb = some (.finished old)) (fits : takeOver conf = .ok saved)
    (some_ : cstr conf.qry.pass ≠ []) (free : Set.InjOn sha256 compared)
    (member : cstr conf.qry.pass ∈ compared) :
    ∃ fs', exec (saveConfig memory clk conf) fs = (.ok saved, fs') ∧
      ((∀ q ∈ compared, exec (authConf sha256 past q) fs' =
          (.ok (decide (q = cstr conf.qry.pass)), fs')) ↔
        storedDigest (cstr conf.qry.pass) past = sha256 (cstr conf.qry.pass)) := by
  obtain ⟨fs', ran, content, -⟩ := exec_saveConfig memory clk holds fits
  refine ⟨fs', ran, ?_⟩
  constructor
  · intro accepts
    have own := accepts _ member
    rw [exec_authConf_saved sha256 past clk some_ content] at own
    simpa using own
  · intro digest q inside
    rw [exec_authConf_saved sha256 past clk some_ content, digest]
    have apart : sha256 (cstr conf.qry.pass) = sha256 q ↔ q = cstr conf.qry.pass := by
      constructor
      · intro same
        exact free inside member same.symm
      · rintro rfl
        rfl
    simp only [apart]

section Sample

/-- SHA-256 on the two passwords of the samples below. -/
def sha256Sample (s : Bytes) : Bytes :=
  if s = str "a" then
    [202, 151, 129, 18, 202, 27, 189, 202, 250, 194, 49, 179, 154, 35, 220, 77, 167, 134, 239, 248,
      20, 124, 78, 114, 185, 128, 119, 133, 175, 238, 72, 187]
  else
    [62, 35, 232, 22, 0, 57, 89, 74, 51, 137, 79, 101, 100, 225, 177, 52, 139, 189, 122, 0, 136,
      212, 44, 74, 203, 115, 238, 174, 213, 156, 0, 157]

/-- The form sets the password `a`. -/
def confSample : Blog :=
  { blogInit with qry := { blogInit.qry with pass := str "a" ++ zeros 63 } }

theorem authConf_saved_iff_sample :
    let fs := Fs.empty.install confDb (.finished [⟨confTagline, [0]⟩])
    ∃ fs', exec (saveConfig (fun _ => ⟨0, 0, fun _ => 0⟩) (fun _ => ⟨0, 0, 0⟩) confSample) fs =
        (.ok confSample, fs') ∧
      ((∀ q ∈ ({str "a", str "b"} : Set Bytes), exec (authConf sha256Sample (fun _ => 0) q) fs' =
          (.ok (decide (q = str "a")), fs')) ↔
        storedDigest (str "a") (fun _ => 0) = sha256Sample (str "a")) := by
  intro fs
  refine authConf_saved_iff sha256Sample {str "a", str "b"} (fun _ => 0) _ _ confSample confSample fs
    [⟨confTagline, [0]⟩] (Fs.content_install_self _ _ _) rfl (by decide) ?_ (.inl rfl)
  rintro p (rfl | rfl) q (rfl | rfl) same
  · rfl
  · exact absurd same (by decide)
  · exact absurd same (by decide)
  · rfl

/-- The password `a` is saved, and refused when it is typed. -/
theorem authConf_refuses_saved :
    let fs := Fs.empty.install confDb (.finished [⟨confTagline, [0]⟩])
    ∃ fs', exec (saveConfig (fun _ => ⟨0, 0, fun _ => 0⟩) (fun _ => ⟨0, 0, 0⟩) confSample) fs =
        (.ok confSample, fs') ∧
      exec (authConf sha256Sample (fun _ => 0) (str "a")) fs' = (.ok false, fs') := by
  intro fs
  obtain ⟨fs', ran, content, -⟩ := exec_saveConfig (fun _ => ⟨0, 0, fun _ => 0⟩)
    (fun _ => ⟨0, 0, 0⟩) (Fs.content_install_self Fs.empty confDb _)
    (rfl : takeOver confSample = .ok confSample)
  refine ⟨fs', ran, ?_⟩
  rw [exec_authConf_saved sha256Sample (fun _ => 0) _ (by decide) content]
  rfl

end Sample

end Bagunceiro
