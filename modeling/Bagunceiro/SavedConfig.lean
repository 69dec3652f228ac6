/-
# SavedConfig -- a saved configuration, loaded again (`save_config`, `load_config`)

The title and the tagline are stored with their terminators and read back into
buffers of the size that is the limit of the form.  So a title or a tagline that
uses its limit up is stored, and refused when it is loaded; and as loading ends at
the first key that fails, the others are lost with it (`config_restored_iff`).
-/
import Bagunceiro.Conf

namespace Bagunceiro

open Effect

set_option autoImplicit false

/-! ## Saving -/

/-- `save_config` but for its two `strcpy`, which have no part in what is stored. -/
def storeConfig (memory : Nat → Slot) (clk : Nat → Taia) (conf : Blog) : M Int := do
  match ← cdbbStartMod memory confDb with
  | none => .fail .uninitialised
  | some a => cdbbApply clk (saveConfigOps conf a)

theorem storeConfig_eq (memory : Nat → Slot) (clk : Nat → Taia) (conf : Blog) :
    (storeConfig memory clk conf >>= fun err => .ret (some err)) =
      (cdbbModify memory clk confDb (saveChanges conf) [] >>= fun err =>
        if err.isSome then .ret err else .fail .uninitialised) := by
  rw [storeConfig, cdbbModify]
  rw [Prog.bind_assoc, Prog.bind_assoc]
  refine congrArg _ (funext fun opened => ?_)
  cases opened with
  | none => rfl
  | some a =>
      show (cdbbApply clk (saveConfigOps conf a) >>= _) = (cdbbApply clk _ >>= _) >>= _
      rw [Prog.bind_assoc, saveConfigOps_eq]
      rfl

/-- A configuration that is stored replaces what was there. -/
theorem content_of_stored {memory : Nat → Slot} {clk : Nat → Taia} {conf : Blog} {fs fs' : Fs}
    {err : Int} (ran : exec (storeConfig memory clk conf) fs = (.ok err, fs')) :
    ∃ old, fs'.content confDb = some (.finished (batchResult [] clk (saveChanges conf) old)) := by
  have stored : exec (storeConfig memory clk conf >>= fun err => .ret (some err)) fs =
      (.ok (some err), fs') := by
    unfold exec at ran ⊢
    rw [Prog.run_bind_ok handle ran]
    rfl
  rw [storeConfig_eq] at stored
  obtain ⟨outcome, -⟩ := exec_cdbbModify memory clk confDb (saveChanges conf) [] fs
  rw [exec] at stored outcome
  rw [Prog.run_bind] at stored
  generalize Prog.run handle (cdbbModify memory clk confDb (saveChanges conf) []) fs = run at *
  obtain ⟨result, t⟩ := run
  simp only at outcome stored
  have member : Change.rep confSearchbox [conf.sbox] ∈ saveChanges conf := by
    simp [saveChanges]
  rcases modifyOutcome_cases memory clk (saveChanges conf) [] (fs.content confDb) with
    ⟨old, -, -, new⟩ | ⟨-, absent⟩ | ⟨e, stopped⟩
  · rw [new] at outcome
    obtain ⟨returned, content⟩ := Prod.mk.inj outcome
    subst returned
    cases stored
    rw [if_neg (newRecords_ne_nil memory [] clk member old),
      newRecords_eq _ _ _ (posed_saveChanges conf old)] at content
    exact ⟨old, content⟩
  · rw [absent] at outcome
    cases (Prod.mk.inj outcome).1
    cases stored
  · rw [stopped] at outcome
    cases (Prod.mk.inj outcome).1
    cases stored

/-- What `save_config` leaves when both strings fit where they are copied to. -/
theorem stored_of_saved {memory : Nat → Slot} {clk : Nat → Taia} {conf saved : Blog} {fs fs' : Fs}
    (ran : exec (saveConfig memory clk conf) fs = (.ok saved, fs')) :
    ∃ err, exec (storeConfig memory clk conf) fs = (.ok err, fs') := by
  rw [exec, saveConfig] at ran
  rw [exec, storeConfig]
  rw [Prog.run_bind_ok handle (exec_cdbbStartMod memory confDb fs)] at ran ⊢
  cases named : fs.dir confDb with
  | none =>
      rw [named] at ran
      cases ran
  | some r =>
      rw [named] at ran
      simp only [Option.map_some] at ran ⊢
      cases fits : takeOver conf with
      | error e =>
          rw [fits] at ran
          cases ran
      | ok taken =>
          rw [fits] at ran
          simp only [written, Prog.ret_bind] at ran
          obtain ⟨err, t, applied, -⟩ :=
            Prog.exists_of_run_bind_ok handle (congrArg (fun r => r.1.isOk) ran)
          rw [Prog.run_bind_ok handle applied] at ran
          cases ran
          exact ⟨err, applied⟩

/-! ## Loading -/

/-- A key with one value. -/
theorem exec_cdbbReadn {r : Inode} {k v : Bytes} {fs : Fs}
    (found : findAll (fs.records r) k = [v]) (n : Nat) :
    exec (cdbbReadn r k n) fs = (.ok (if n < v.length then (-2, []) else (1, v)), fs) := by
  have file : exec (records r) fs = (.ok (fs.records r), fs) := rfl
  rw [exec, cdbbReadn]
  rw [Prog.run_bind_ok handle file, found]
  simp only
  split
  · rfl
  · rfl

/-- The three values of a configuration. -/
structure Configured (fs : Fs) (title tagline : Bytes) (sbox : UInt8) : Prop where
  named : ∃ r, fs.dir confDb = some r ∧ findAll (fs.records r) confTitle = [title ++ [0]] ∧
    findAll (fs.records r) confTagline = [tagline ++ [0]] ∧
    findAll (fs.records r) confSearchbox = [[sbox]]

theorem configured_of_stored {memory : Nat → Slot} {clk : Nat → Taia} {conf : Blog} {fs fs' : Fs}
    {err : Int} (ran : exec (storeConfig memory clk conf) fs = (.ok err, fs'))
    (some_ : cstr conf.qry.title ≠ []) :
    Configured fs' (cstr conf.qry.title) (cstr conf.qry.tagline) conf.sbox := by
  obtain ⟨old, content⟩ := content_of_stored ran
  obtain ⟨r, named, node⟩ := Fs.dir_of_content content
  have file : fs'.records r = _ := Fs.records_of_finished fs' node
  have value {k v : Bytes} (member : Change.rep k v ∈ saveChanges conf) :
      findAll (fs'.records r) k = [v] := by
    have values := findAll_batchResult_of_mem clk member (posed_saveChanges conf old).distinct old
    rw [key_rep] at values
    rw [file, values]
    simp [Change.onValues, Change.keepsValue, Change.adds]
  exact ⟨r, named, value (by simp [saveChanges, some_]), value (by simp [saveChanges]),
    value (by simp [saveChanges])⟩

theorem length_terminated (v : Bytes) : (v ++ [0]).length = v.length + 1 := by
  rw [List.length_append, List.length_singleton]

section Load

variable {fs : Fs} {title tagline : Bytes} {sbox : UInt8}

/-- Strings that leave room for the terminator come back. -/
theorem load_restores (configured : Configured fs title tagline sbox) (fresh : Blog)
    (titlePlain : (0 : UInt8) ∉ title) (taglinePlain : (0 : UInt8) ∉ tagline)
    (titleFits : title.length < sizeHttpArg) (taglineFits : tagline.length < sizeTagline) :
    ∃ conf, exec (loadConfig fresh) fs = (.ok (1, conf), fs) ∧ cstr conf.title = title ∧
      cstr conf.tagline = tagline ∧ conf.sbox = sbox := by
  obtain ⟨r, named, hasTitle, hasTagline, hasSbox⟩ := configured.named
  have read {k v : Bytes} {n : Nat} (found : findAll (fs.records r) k = [v]) (fits : v.length ≤ n) :
      exec (cdbbReadn r k n) fs = (.ok (1, v), fs) := by
    rw [exec_cdbbReadn found, if_neg (Nat.not_lt.2 fits)]
  have terminated {v rest : Bytes} (plain : (0 : UInt8) ∉ v) : cstr (v ++ [0] ++ rest) = v := by
    rw [List.append_assoc]
    exact cstr_append plain
  refine ⟨{ fresh with
    title := title ++ [0] ++ fresh.title.drop (title ++ [0]).length
    tagline := tagline ++ [0] ++ fresh.tagline.drop (tagline ++ [0]).length
    sbox := sbox }, ?_, terminated titlePlain, terminated taglinePlain, rfl⟩
  rw [exec, loadConfig]
  rw [Prog.run_bind_ok handle (exec_openRead named)]
  simp only
  rw [Prog.run_bind_ok handle (read hasTitle (by rw [length_terminated]; exact titleFits))]
  simp only
  rw [if_neg (by decide),
    Prog.run_bind_ok handle (read hasTagline (by rw [length_terminated]; exact taglineFits))]
  simp only
  rw [if_neg (by decide), Prog.run_bind_ok handle (read hasSbox (by simp))]
  rfl

/-- A string of the full length is not loaded, and nothing behind it is. -/
theorem load_fails (configured : Configured fs title tagline sbox) (fresh : Blog)
    (long : sizeHttpArg ≤ title.length ∨ sizeTagline ≤ tagline.length) :
    ∃ conf, exec (loadConfig fresh) fs = (.ok (-2, conf), fs) := by
  obtain ⟨r, named, hasTitle, hasTagline, hasSbox⟩ := configured.named
  have refused {k v : Bytes} {n : Nat} (found : findAll (fs.records r) k = [v ++ [0]])
      (long : n ≤ v.length) : exec (cdbbReadn r k n) fs = (.ok (-2, []), fs) := by
    rw [exec_cdbbReadn found, if_pos (by rw [length_terminated]; omega)]
  rw [exec, loadConfig]
  rw [Prog.run_bind_ok handle (exec_openRead named)]
  simp only
  by_cases longTitle : sizeHttpArg ≤ title.length
  · rw [Prog.run_bind_ok handle (refused hasTitle longTitle)]
    exact ⟨_, rfl⟩
  · have longTagline : sizeTagline ≤ tagline.length := long.resolve_left longTitle
    have read := exec_cdbbReadn hasTitle sizeHttpArg
    rw [if_neg (by rw [length_terminated]; omega)] at read
    rw [Prog.run_bind_ok handle read]
    simp only
    rw [if_neg (by decide), Prog.run_bind_ok handle (refused hasTagline longTagline)]
    exact ⟨_, rfl⟩

end Load

/-! ## There and back -/

/-- What is stored with these three is loaded with these three. -/
def Restores (title tagline : Bytes) (sbox : UInt8) : Prop :=
  ∀ (memory : Nat → Slot) (clk : Nat → Taia) (conf fresh : Blog) (fs fs' : Fs) (err : Int),
    cstr conf.qry.title = title → cstr conf.qry.tagline = tagline → conf.sbox = sbox →
    exec (storeConfig memory clk conf) fs = (.ok err, fs') →
    ∃ err' conf', exec (loadConfig fresh) fs' = (.ok (err', conf'), fs') ∧ 0 ≤ err' ∧
      cstr conf'.title = title ∧ cstr conf'.tagline = tagline ∧ conf'.sbox = sbox

/-- A form as it is when it is saved. -/
def configForm (title tagline : Bytes) (sbox : UInt8) : Blog :=
  { blogInit with
    sbox
    qry := { blogInit.qry with title := title ++ [0], tagline := tagline ++ [0] } }

/-- An empty configuration database. -/
def unconfigured : Fs := Fs.empty.install confDb (.finished [])

theorem unconfigured_holds : unconfigured.content confDb = some (.finished []) := by
  simp [unconfigured, Fs.content, Fs.install, Fs.create, Fs.setNode]

theorem configForm_stored (title tagline : Bytes) (sbox : UInt8) :
    ∃ fs' err, exec (storeConfig (fun _ => ⟨0, 0, fun _ => 0⟩) (fun _ => ⟨0, 0, 0⟩)
      (configForm title tagline sbox)) unconfigured = (.ok err, fs') := by
  obtain ⟨r, named, node⟩ := Fs.dir_of_content unconfigured_holds
  obtain ⟨fs', ran, -⟩ := exec_cdbbApply_posed (fun _ => ⟨0, 0, fun _ => 0⟩) (fun _ => ⟨0, 0, 0⟩)
    (room_saveChanges (configForm title tagline sbox)) named
    (Fs.records_of_finished _ node) (posed_saveChanges (configForm title tagline sbox) [])
  refine ⟨fs', _, Eq.trans ?_ ran⟩
  rw [exec, storeConfig]
  rw [Prog.run_bind_ok handle (exec_cdbbStartMod _ confDb unconfigured), named]
  simp only [Option.map_some, saveConfigOps_eq]

/-- **A configuration comes back exactly when its title and its tagline leave room
for their terminators**, whatever of them the form admits; and what `save_config`
leaves is what is stored. -/
theorem config_restored_iff (title tagline : Bytes) (sbox : UInt8) (some_ : title ≠ [])
    (titleLimit : title.length ≤ sizeHttpArg) (taglineLimit : tagline.length ≤ sizeTagline)
    (titlePlain : (0 : UInt8) ∉ title) (taglinePlain : (0 : UInt8) ∉ tagline) :
    (Restores title tagline sbox ↔ title.length ≠ sizeHttpArg ∧ tagline.length ≠ sizeTagline) ∧
      ∀ memory clk conf saved fs fs', exec (saveConfig memory clk conf) fs = (.ok saved, fs') →
        ∃ err, exec (storeConfig memory clk conf) fs = (.ok err, fs') := by
  refine ⟨⟨fun restores => ?_, ?_⟩, fun _ _ _ _ _ _ => stored_of_saved⟩
  · by_contra long
    obtain ⟨fs', err, ran⟩ := configForm_stored title tagline sbox
    have hasTitle : cstr (configForm title tagline sbox).qry.title = title := cstr_append titlePlain
    have hasTagline : cstr (configForm title tagline sbox).qry.tagline = tagline :=
      cstr_append taglinePlain
    have configured := configured_of_stored ran (by rw [hasTitle]; exact some_)
    rw [hasTitle, hasTagline] at configured
    obtain ⟨conf, failed⟩ := load_fails configured blogInit (by omega)
    obtain ⟨err', conf', loaded, success, -⟩ :=
      restores _ _ _ blogInit _ _ _ hasTitle hasTagline rfl ran
    rw [failed] at loaded
    cases loaded
    exact absurd success (by decide)
  · rintro ⟨titleShort, taglineShort⟩ memory clk conf fresh fs fs' err rfl rfl rfl ran
    obtain ⟨conf', loaded, restored⟩ := load_restores (configured_of_stored ran some_) fresh titlePlain
      taglinePlain (by omega) (by omega)
    exact ⟨1, conf', loaded, by decide, restored⟩

/-- A title of 63 letters. -/
theorem config_restored_sample : Restores (List.replicate 63 97) (str "about") 121 :=
  (config_restored_iff (List.replicate 63 97) (str "about") 121 (by decide) (by decide) (by decide)
    (by decide) (by decide)).1.2 ⟨by decide, by decide⟩

/-- One of 64 is stored and cannot be loaded. -/
theorem full_title_is_lost : ¬ ∀ (title tagline : Bytes) (sbox : UInt8), title ≠ [] →
    title.length ≤ sizeHttpArg → tagline.length ≤ sizeTagline → (0 : UInt8) ∉ title →
    (0 : UInt8) ∉ tagline → Restores title tagline sbox := by
  intro claim
  have plain : (0 : UInt8) ∉ List.replicate 64 (97 : UInt8) := by decide
  have restores := claim (List.replicate 64 97) [] 110 (by decide) (by decide) (by decide) plain
    (by decide)
  obtain ⟨fs', err, ran⟩ := configForm_stored (List.replicate 64 97) [] 110
  have hasTitle : cstr (configForm (List.replicate 64 97) [] 110).qry.title = List.replicate 64 97 :=
    cstr_append plain
  have configured := configured_of_stored ran (by rw [hasTitle]; decide)
  rw [hasTitle] at configured
  obtain ⟨conf, failed⟩ := load_fails configured blogInit (.inl (by decide))
  obtain ⟨err', conf', loaded, success, -⟩ :=
    restores _ _ _ blogInit _ _ _ hasTitle rfl rfl ran
  rw [failed] at loaded
  cases loaded
  exact absurd success (by decide)

end Bagunceiro
