import CaviErp.Lib.Proofs.JsonTextProofs
import CaviErp.Lib.Sorted
import CaviErp.Scripts.Bootstrap
import CaviErp.Scripts.History
import Mathlib.Data.List.Induction

/-!
# What is registered is what the agents read

The name of a file is read back as the subject and the version it was made of. Of the files that write one
version the last in the order of the names is registered, and that is the one which the agents look up.
-/

namespace CaviErp

open Py

/-! ## Numerals -/

/-- The digits of a number are those of a numeral that has no leading zero. -/
theorem toDigits_ofDigitChars {c : Char} {cs : List Char} (hall : ∀ d ∈ c :: cs, d.isDigit = true)
    (hzero : c ≠ '0') : Nat.toDigits 10 (Nat.ofDigitChars 10 (c :: cs) 0) = c :: cs := by
  have hdigit : ∀ d : Char, d.isDigit = true → d.toNat - '0'.toNat < 10 ∧
      (d.toNat - '0'.toNat).digitChar = d ∧ (d ≠ '0' → d.toNat - '0'.toNat ≠ 0) := by
    intro d hd
    rcases JsonText.isDigit_cases hd with rfl | rfl | rfl | rfl | rfl | rfl | rfl | rfl | rfl | rfl <;> decide
  induction cs using List.reverseRecOn with
  | nil =>
    obtain ⟨hlt, hchar, -⟩ := hdigit c (hall c List.mem_cons_self)
    rw [Nat.ofDigitChars_cons, Nat.ofDigitChars_nil, Nat.mul_zero, Nat.zero_add, Nat.toDigits_of_lt_base hlt,
      hchar]
  | append_singleton cs d ih =>
    have hinit : ∀ x ∈ c :: cs, x.isDigit = true := by
      intro x hx
      rw [← List.cons_append] at hall
      exact hall x (List.mem_append_left _ hx)
    have hfirst := ih hinit
    obtain ⟨hlt, hchar, -⟩ := hdigit d (hall d (by simp))
    generalize hv : Nat.ofDigitChars 10 (c :: cs) 0 = v at hfirst
    have hpos : 0 < v := by
      rcases Nat.eq_zero_or_pos v with rfl | hpos
      · rw [Nat.toDigits_of_lt_base (by omega)] at hfirst
        exact absurd (List.cons.inj hfirst).1.symm hzero
      · exact hpos
    have hvalue : Nat.ofDigitChars 10 (c :: (cs ++ [d])) 0 = 10 * v + (d.toNat - '0'.toNat) := by
      rw [← List.cons_append, Nat.ofDigitChars_append, hv, Nat.ofDigitChars_cons, Nat.ofDigitChars_nil]
    rw [hvalue, Nat.toDigits_of_base_le (by omega) (by omega)]
    have hdiv : (10 * v + (d.toNat - '0'.toNat)) / 10 = v := by omega
    have hmod : (10 * v + (d.toNat - '0'.toNat)) % 10 = d.toNat - '0'.toNat := by omega
    rw [hdiv, hmod, hfirst, hchar]
    rfl

namespace Bootstrap

open Migrate (File Directory isDigit digitValue number endsWith)

/-! ## File names -/

theorem dropSuffix_eq_some {cs suffix pre : List Char} :
    dropSuffix cs suffix = some pre ↔ cs = pre ++ suffix := by
  unfold dropSuffix
  constructor
  · intro h
    split at h
    · rename_i hsuffix
      obtain ⟨init, rfl⟩ := List.isSuffixOf_iff_suffix.mp hsuffix
      rw [List.length_append, Nat.add_sub_cancel, List.take_left] at h
      rw [Option.some.inj h]
    · cases h
  · rintro rfl
    rw [if_pos (List.isSuffixOf_iff_suffix.mpr (List.suffix_append _ _)), List.length_append,
      Nat.add_sub_cancel, List.take_left]

/-- A run of digits at the end of a text. -/
theorem rtakeWhile_digits {ds : List Char} {c : Char} (hc : isDigit c = false)
    (hds : ∀ d ∈ ds, isDigit d = true) (init : List Char) :
    (init ++ [c] ++ ds).rtakeWhile isDigit = ds ∧ (init ++ [c] ++ ds).rdropWhile isDigit = init ++ [c] := by
  induction ds using List.reverseRecOn with
  | nil =>
    rw [List.append_nil, List.rtakeWhile_concat_neg _ _ _ (by simp [hc]),
      List.rdropWhile_concat_neg _ _ _ (by simp [hc])]
    exact ⟨rfl, rfl⟩
  | append_singleton ds d ih =>
    have hd := hds d (by simp)
    obtain ⟨htake, hdrop⟩ := ih fun x hx => hds x (by simp [hx])
    rw [← List.append_assoc, List.rtakeWhile_concat_pos _ _ _ hd, List.rdropWhile_concat_pos _ _ _ hd, htake,
      hdrop]
    exact ⟨rfl, rfl⟩

/-- The name of a file of a subject, with the version in the given digits. -/
def fileName (subject : String) (ds : List Char) : List Char :=
  subject.toList ++ ".v".toList ++ ds ++ ".json".toList

/-- The names that are read as a subject and a version. -/
theorem parse_iff {filename subject : String} {version : Nat} (hjson : endsWith filename ".json" = true) :
    parseSubjectVersion filename = some (subject, version) ↔
      Nameable subject ∧ ∃ ds, filename.toList = fileName subject ds ∧ ds ≠ [] ∧
        (∀ d ∈ ds, isDigit d = true) ∧ number (String.ofList ds) = version := by
  obtain ⟨stem, hstem⟩ := List.isSuffixOf_iff_suffix.mp hjson
  have hlast : filename.toList.getLast? ≠ some '\n' := by
    rw [← hstem, List.getLast?_append]
    exact nofun
  have hv : isDigit 'v' = false := by decide
  unfold parseSubjectVersion fileName
  dsimp only
  rw [if_neg hlast]
  constructor
  · intro h
    rw [dropSuffix_eq_some.mpr hstem.symm] at h
    simp only [Option.bind_eq_bind, Option.bind_some] at h
    obtain ⟨pre, hpre, h⟩ := Option.bind_eq_some_iff.mp h
    split at h
    · rename_i hmatch
      obtain ⟨hds, hne, hline⟩ := hmatch
      obtain ⟨rfl, rfl⟩ := Prod.mk.inj (Option.some.inj h)
      refine ⟨⟨?_, ?_⟩, stem.rtakeWhile isDigit, ?_, hds, fun d hd => List.mem_rtakeWhile_imp hd, rfl⟩
      · intro hempty
        exact hne (by simpa using congrArg String.toList hempty)
      · rw [String.toList_ofList]
        exact hline
      · rw [String.toList_ofList, ← hstem, ← dropSuffix_eq_some.mp hpre,
          List.rdropWhile_append_rtakeWhile]
    · cases h
  · rintro ⟨⟨hne, hline⟩, ds, hname, hds, hall, rfl⟩
    rw [hname, dropSuffix_eq_some.mpr rfl]
    have hsplit : subject.toList ++ ".v".toList ++ ds = subject.toList ++ ['.'] ++ ['v'] ++ ds := by
      simp
    obtain ⟨htake, hdrop⟩ := rtakeWhile_digits hv hall (subject.toList ++ ['.'])
    simp only [Option.bind_eq_bind, Option.bind_some]
    rw [hsplit, htake, hdrop]
    have hpre : dropSuffix (subject.toList ++ ['.'] ++ ['v']) ".v".toList = some subject.toList := by
      rw [dropSuffix_eq_some]
      simp
    have hsubject : subject.toList ≠ [] := fun h => hne (String.toList_inj.mp (by rw [h]; rfl))
    rw [hpre, Option.bind_some, if_pos ⟨hds, hsubject, hline⟩, String.ofList_toList]

/-- An ASCII digit has the value that it has for `int`. -/
theorem digitValue_ascii {c : Char} (h : c.isDigit = true) : digitValue c = some (c.toNat - '0'.toNat) := by
  rcases JsonText.isDigit_cases h with rfl | rfl | rfl | rfl | rfl | rfl | rfl | rfl | rfl | rfl <;> rfl

theorem number_ascii {ds : List Char} (h : ∀ d ∈ ds, d.isDigit = true) :
    number (String.ofList ds) = Nat.ofDigitChars 10 ds 0 := by
  unfold number
  rw [String.toList_ofList, Nat.ofDigitChars_eq_foldl]
  refine List.foldl_ext _ _ _ fun n d hd => ?_
  rw [digitValue_ascii (h d hd)]
  rfl

theorem toDigits_ascii (n : Nat) : ∀ d ∈ Nat.toDigits 10 n, d.isDigit = true := fun _ hd =>
  Nat.isDigit_of_mem_toDigits (by omega) (by omega) hd

/-- The name of the file that the registry looks a schema up by. -/
def canonicalName (subject : String) (version : Nat) : String :=
  SchemaRegistry.key (.str subject) (.int version) ++ ".json"

theorem toList_canonicalName (subject : String) (version : Nat) :
    (canonicalName subject version).toList = fileName subject (Nat.toDigits 10 version) := by
  have hversion : (Json.int (version : Int)).pyStr.toList = Nat.toDigits 10 version := by
    show (String.ofList (toString version).toList).toList = _
    rw [Nat.toString_eq_ofList_toDigits, String.toList_ofList, String.toList_ofList]
  unfold canonicalName SchemaRegistry.key fileName
  rw [String.toList_append, String.toList_append, String.toList_append, hversion]
  rfl

theorem endsWith_canonicalName (subject : String) (version : Nat) :
    endsWith (canonicalName subject version) ".json" = true := by
  unfold endsWith
  rw [toList_canonicalName]
  exact List.isSuffixOf_iff_suffix.mpr (List.suffix_append _ _)

/-- The name that the registry makes of a subject and a version is read as these. -/
theorem parse_canonicalName {subject : String} (hsubject : Nameable subject) (version : Nat) :
    parseSubjectVersion (canonicalName subject version) = some (subject, version) := by
  have hascii := toDigits_ascii version
  refine (parse_iff (endsWith_canonicalName subject version)).mpr
    ⟨hsubject, Nat.toDigits 10 version, toList_canonicalName subject version, Nat.toDigits_ne_nil, ?_, ?_⟩
  · intro d hd
    rw [isDigit, digitValue_ascii (hascii d hd)]
    rfl
  · rw [number_ascii hascii, Nat.ofDigitChars_ten_toDigits]

/-! ## Which file comes last -/

/-- A file that writes the version of the subject. -/
def Writes (subject : String) (version : Nat) (file : File) : Prop :=
  parseSubjectVersion file.name = some (subject, version)

instance (subject : String) (version : Nat) (file : File) : Decidable (Writes subject version file) :=
  inferInstanceAs (Decidable (_ = _))

/-- Of the names that write a version in ASCII digits, the one without leading zeros comes last. -/
theorem lt_canonicalName {subject filename : String} {version : Nat} (hversion : 1 ≤ version)
    (hjson : endsWith filename ".json" = true)
    (hparse : parseSubjectVersion filename = some (subject, version))
    (hascii : ∀ c ∈ filename.toList, isDigit c = true → c.isDigit = true)
    (hne : filename ≠ canonicalName subject version) : filename < canonicalName subject version := by
  obtain ⟨-, ds, hname, hds, hall, hnumber⟩ := (parse_iff hjson).mp hparse
  have hdigits : ∀ d ∈ ds, d.isDigit = true := by
    intro d hd
    refine hascii d ?_ (hall d hd)
    rw [hname]
    simp [fileName, hd]
  rw [number_ascii hdigits] at hnumber
  obtain ⟨c, cs, rfl⟩ := List.exists_cons_of_ne_nil hds
  obtain ⟨first, rest, hcanonical, hfirst, hisDigit, -⟩ := JsonText.leading_toDigits (n := version) (by omega)
  have hzero : c = '0' := by
    by_contra hc
    have hsame := toDigits_ofDigitChars hdigits hc
    rw [hnumber] at hsame
    exact hne (String.toList_inj.mp (by rw [hname, toList_canonicalName, hsame]))
  rw [String.lt_iff_toList_lt, hname, toList_canonicalName, hcanonical, hzero]
  have hlt : '0' < first := by
    rcases JsonText.isDigit_cases hisDigit with
      rfl | rfl | rfl | rfl | rfl | rfl | rfl | rfl | rfl | rfl
    · exact absurd rfl hfirst
    all_goals decide
  unfold fileName
  simp only [List.append_assoc, List.cons_append]
  have hrest : ('0' :: (cs ++ ".json".toList)) < first :: (rest ++ ".json".toList) := List.Lex.rel hlt
  exact List.append_left_lt (List.append_left_lt hrest)

/-! ## Discovery -/

/-- The record that a file gives, if it is read. -/
def contract? (file : File) : Option Contract := (ofFile file).toOption.join

theorem collect_eq {files : List File} {records : List Contract} (h : collect files = .ok records) :
    records = files.filterMap contract? ∧ ∀ file ∈ files, ∃ found, ofFile file = .ok found := by
  induction files generalizing records with
  | nil =>
    obtain rfl := Except.ok.inj h
    exact ⟨rfl, nofun⟩
  | cons file files ih =>
    rw [collect] at h
    cases hfile : ofFile file with
    | error e =>
      rw [hfile] at h
      cases h
    | ok found =>
      rw [hfile] at h
      cases hrest : collect files with
      | error e =>
        rw [hrest] at h
        cases h
      | ok rest =>
        rw [hrest] at h
        obtain rfl := Except.ok.inj h
        obtain ⟨hrecords, hread⟩ := ih hrest
        refine ⟨?_, fun f hf => ?_⟩
        · rw [List.filterMap_cons, contract?, hfile, ← hrecords]
          cases found <;> rfl
        · rcases List.mem_cons.mp hf with rfl | hf
          · exact ⟨found, hfile⟩
          · exact hread f hf

theorem contract?_eq_some {file : File} {c : Contract} (h : contract? file = some c) :
    c.path = file ∧ parseSubjectVersion file.name = some (c.subject, c.version) ∧
      loads file.text = some c.schema := by
  unfold contract? ofFile at h
  cases hparse : parseSubjectVersion file.name with
  | none =>
    rw [hparse] at h
    cases h
  | some key =>
    obtain ⟨subject, version⟩ := key
    rw [hparse] at h
    cases hread : loads file.text with
    | none =>
      rw [hread] at h
      cases h
    | some schema =>
      rw [hread] at h
      obtain rfl := Option.some.inj h
      exact ⟨rfl, rfl, rfl⟩

/-- A file that is read and bears a name of the registry gives a record. -/
theorem exists_contract {file : File} {subject : String} {version : Nat}
    (hread : ∃ found, ofFile file = .ok found) (hwrites : Writes subject version file) :
    ∃ c, contract? file = some c ∧ c.subject = subject ∧ c.version = version := by
  obtain ⟨found, hfound⟩ := hread
  have hcontract := hfound
  unfold ofFile at hfound
  rw [show parseSubjectVersion file.name = some (subject, version) from hwrites] at hfound
  cases hloads : loads file.text with
  | none =>
    simp only [hloads] at hfound
    cases hfound
  | some schema =>
    simp only [hloads] at hfound
    obtain rfl := Except.ok.inj hfound
    exact ⟨_, by rw [contract?, hcontract]; rfl, rfl, rfl⟩

theorem mem_listed {dir : Directory} {file : File} :
    file ∈ listed dir ↔ file ∈ dir.files ∧ endsWith file.name ".json" = true := by
  rw [listed, List.mem_insertionSort, List.mem_filter]

theorem listed_sorted (dir : Directory) : (listed dir).Pairwise fun a b => a.name < b.name :=
  Sorted.pairwise_lt File.name ((List.filter_sublist.map File.name).nodup dir.nodup)

/-! ## The table -/

/-- A record that is put in last stays. -/
theorem foldl_upsert_last (now : String) (table : Table) {records : List Contract} (pre post : List Contract)
    {c : Contract} (hsplit : records = pre ++ c :: post) (hlast : ∀ d ∈ post, (d.subject, d.version) ≠ (c.subject, c.version)) :
    records.foldl (upsert now) table (c.subject, c.version) = some ⟨dumps .default c.schema, now⟩ := by
  subst hsplit
  rw [List.foldl_append, List.foldl_cons]
  generalize pre.foldl (upsert now) table = t
  induction post using List.reverseRecOn with
  | nil => exact Function.update_self ..
  | append_singleton post d ih =>
    rw [List.foldl_append, List.foldl_cons, List.foldl_nil, upsert,
      Function.update_of_ne (hlast d (by simp)).symm]
    exact ih fun x hx => hlast x (by simp [hx])

/-- What is in the table was there, or is put in. -/
theorem admits_foldl (now : String) (table : Table) (records : List Contract) (subject : String)
    (version : Nat) : Admits (records.foldl (upsert now) table) subject version ↔
      Admits table subject version ∨ ∃ c ∈ records, c.subject = subject ∧ c.version = version := by
  induction records generalizing table with
  | nil => simp
  | cons c records ih =>
    rw [List.foldl_cons, ih]
    have hfirst : Admits (upsert now table c) subject version ↔
        Admits table subject version ∨ (c.subject = subject ∧ c.version = version) := by
      unfold Admits upsert
      rw [Function.update_apply]
      by_cases hkey : (subject, version) = (c.subject, c.version)
      · obtain ⟨rfl, rfl⟩ := Prod.mk.inj hkey
        simp
      · rw [if_neg hkey]
        have hne : ¬ (c.subject = subject ∧ c.version = version) := fun h => hkey (by rw [h.1, h.2])
        simp [hne]
    rw [hfirst]
    simp only [List.mem_cons, exists_eq_or_imp]
    exact or_assoc

/-- A run fails and leaves the table, or puts in all that it has found. -/
theorem loadSchemas_cases (env : Env) (dir : Directory) (table : Table) :
    (∃ e, loadSchemas env dir table = (.error e, table)) ∨
      ∃ records, discoverSchemas dir = .ok records ∧
        loadSchemas env dir table = (.ok records.length, records.foldl (upsert env.now) table) := by
  unfold loadSchemas
  simp only [Action.bind_apply, Action.ofExcept_apply]
  cases discoverSchemas dir with
  | error e => exact .inl ⟨.raised e, rfl⟩
  | ok records =>
    cases hconnect : env.connect with
    | some text => exact .inl ⟨.database text, rfl⟩
    | none =>
      cases hupsert : records.findSome? env.upsert with
      | some text => exact .inl ⟨.database text, by simp [Except.mapError, hupsert]⟩
      | none =>
        cases hcommit : env.commit with
        | some text => exact .inl ⟨.database text, by simp [Except.mapError, hupsert]⟩
        | none => exact .inr ⟨records, rfl, by simp [Except.mapError, hupsert]⟩

theorem admits_discovered {dir : Directory} {records : List Contract} (h : discoverSchemas dir = .ok records)
    (now : String) (table : Table) {subject : String} {version : Nat} {file : File} (hfile : file ∈ listed dir)
    (hwrites : Writes subject version file) : Admits (records.foldl (upsert now) table) subject version := by
  obtain ⟨hrecords, hread⟩ := collect_eq h
  obtain ⟨c, hc, hsubject, hversion⟩ := exists_contract (hread file hfile) hwrites
  refine (admits_foldl now table records subject version).mpr (.inr ⟨c, ?_, hsubject, hversion⟩)
  rw [hrecords]
  exact List.mem_filterMap.mpr ⟨file, hfile, hc⟩

/-! ## The files of the agents -/

theorem contractFile_eq_some {dir : Directory} {subject : String} {version : Nat} {file : File} :
    contractFile dir subject version = some file ↔
      file ∈ dir.files ∧ file.name = canonicalName subject version := by
  unfold contractFile
  constructor
  · intro h
    exact ⟨List.mem_of_find?_eq_some h, by simpa [canonicalName] using List.find?_some h⟩
  · rintro ⟨hmem, hname⟩
    cases hfind : dir.files.find? fun file =>
        file.name = SchemaRegistry.key (.str subject) (.int version) ++ ".json" with
    | none =>
      have hnot := List.find?_eq_none.mp hfind file hmem
      exact absurd hname (by simpa [canonicalName] using hnot)
    | some found =>
      have hfound : found.name = canonicalName subject version := by
        simpa [canonicalName] using List.find?_some hfind
      exact congrArg some (List.inj_on_of_nodup_map dir.nodup (List.mem_of_find?_eq_some hfind) hmem
        (hfound.trans hname.symm))

/-- A file of an agent is read in a directory to which files were added. -/
theorem contractOf_grows {dir dir' : Directory} (h : dir.Grows dir') {subject : String} {version : Nat}
    {doc : Json} (hdoc : contractOf dir subject version = some doc) :
    contractOf dir' subject version = some doc := by
  obtain ⟨file, hfile, hloads⟩ := Option.bind_eq_some_iff.mp hdoc
  obtain ⟨hmem, hname⟩ := contractFile_eq_some.mp hfile
  exact Option.bind_eq_some_iff.mpr ⟨file, contractFile_eq_some.mpr ⟨h file hmem, hname⟩, hloads⟩

theorem listed_of_canonical {dir : Directory} {subject : String} {version : Nat} {file : File}
    (hmem : file ∈ dir.files) (hname : file.name = canonicalName subject version) : file ∈ listed dir :=
  mem_listed.mpr ⟨hmem, hname ▸ endsWith_canonicalName subject version⟩

/-- What the agents read is put in last. -/
theorem canonical_registered {dir : Directory} {records : List Contract} (h : discoverSchemas dir = .ok records)
    (hascii : AsciiVersions dir) (now : String) (table : Table) {subject : String} {version : Nat} {doc : Json}
    (hsubject : Nameable subject) (hversion : 1 ≤ version) (hdoc : contractOf dir subject version = some doc) :
    records.foldl (upsert now) table (subject, version) = some ⟨dumps .default doc, now⟩ := by
  obtain ⟨file, hfile, hloads⟩ := Option.bind_eq_some_iff.mp hdoc
  obtain ⟨hmem, hname⟩ := contractFile_eq_some.mp hfile
  have hlisted := listed_of_canonical hmem hname
  obtain ⟨hrecords, hread⟩ := collect_eq h
  have hwrites : Writes subject version file := by
    unfold Writes
    rw [hname]
    exact parse_canonicalName hsubject version
  obtain ⟨c, hc, rfl, rfl⟩ := exists_contract (hread file hlisted) hwrites
  obtain ⟨-, -, hschema⟩ := contract?_eq_some hc
  obtain rfl := Option.some.inj (hschema.symm.trans hloads)
  obtain ⟨pre, post, hsplit⟩ := List.append_of_mem hlisted
  have hsorted := listed_sorted dir
  rw [hsplit, List.pairwise_append] at hsorted
  have hafter := (List.pairwise_cons.mp hsorted.2.1).1
  refine foldl_upsert_last now table (pre.filterMap contract?) (post.filterMap contract?) ?_ ?_
  · rw [hrecords, hsplit, List.filterMap_append, List.filterMap_cons, hc]
  · intro d hd hkey
    obtain ⟨other, hother, hd⟩ := List.mem_filterMap.mp hd
    obtain ⟨-, hparse, -⟩ := contract?_eq_some hd
    have hlater := hafter other hother
    have hinDir := mem_listed.mp (hsplit ▸ List.mem_append_right _ (List.mem_cons_of_mem _ hother))
    rw [hkey] at hparse
    rw [hname] at hlater
    have hearlier := lt_canonicalName hversion hinDir.2 hparse (hascii other hinDir.1) hlater.ne'
    exact lt_asymm hlater hearlier

/-! ## Runs -/

theorem loaded_append (runs later : List Run) : loaded (runs ++ later) = later.foldl afterRun (loaded runs) :=
  List.foldl_append ..

/-- A run leaves the table, or puts in all that it has found. -/
theorem afterRun_cases (table : Table) (run : Run) : afterRun table run = table ∨
    ∃ records, discoverSchemas run.2 = .ok records ∧
      afterRun table run = records.foldl (upsert run.1.now) table := by
  unfold afterRun
  rcases loadSchemas_cases run.1 run.2 table with ⟨e, hrun⟩ | ⟨records, hdiscover, hrun⟩
  · exact .inl (by rw [hrun])
  · exact .inr ⟨records, hdiscover, by rw [hrun]⟩

/-- No run takes anything out of the table. -/
theorem admits_runs (later : List Run) {table : Table} {subject : String} {version : Nat}
    (h : Admits table subject version) :
    Admits (later.foldl afterRun table) subject version := by
  induction later generalizing table with
  | nil => exact h
  | cons run later ih =>
    refine ih ?_
    rcases afterRun_cases table run with hrun | ⟨records, -, hrun⟩
    · rw [hrun]
      exact h
    · rw [hrun]
      exact (admits_foldl run.1.now table records subject version).mpr (.inl h)

/-- Runs over directories with the same file leave its text. -/
theorem registered_runs {later : List Run} {table : Table} {subject : String} {version : Nat}
    {doc : Json} (hsubject : Nameable subject) (hversion : 1 ≤ version)
    (hlater : ∀ run ∈ later, AsciiVersions run.2 ∧ contractOf run.2 subject version = some doc)
    (h : ∃ row, table (subject, version) = some row ∧ row.jsonSchema = dumps .default doc) :
    ∃ row, later.foldl afterRun table (subject, version) = some row ∧ row.jsonSchema = dumps .default doc := by
  induction later generalizing table with
  | nil => exact h
  | cons run later ih =>
    refine ih (fun run hrun => hlater run (List.mem_cons_of_mem _ hrun)) ?_
    obtain ⟨hascii, hdoc⟩ := hlater run List.mem_cons_self
    rcases afterRun_cases table run with hrun | ⟨records, hdiscover, hrun⟩
    · rw [hrun]
      exact h
    · rw [hrun]
      exact ⟨_, canonical_registered hdiscover hascii run.1.now table hsubject hversion hdoc, rfl⟩

/-- **What the agents' registry reads, the foreign key of the event log admits.** Once a run over a directory has
returned, and whatever runs follow, fail or not: the table has each subject and version for which the registry
over the directory finds a schema. If files are only added to it, and versions are written in ASCII digits and
count from one, the table keeps that very schema, however often the same version is written in other ways. -/
theorem registered_for_agents (before later : List Run) (env : Env) (dir : Directory)
    {count : Nat} (hreturned : (loadSchemas env dir (loaded before)).1 = .ok count)
    (path : String) (read : Json → Schema) (complaint : Schema → Json → String)
    {subject : String} (hsubject : Nameable subject) {version : Nat} {schema : Schema}
    (hfound : (registry dir path read complaint).get (.str subject) (.int version) = .ok schema) :
    Admits (loaded (before ++ (env, dir) :: later)) subject version ∧
      ((∀ run ∈ later, dir.Grows run.2) → (∀ run ∈ (env, dir) :: later, AsciiVersions run.2) → 1 ≤ version →
        ∃ row doc, loaded (before ++ (env, dir) :: later) (subject, version) = some row ∧
          row.jsonSchema = dumps .default doc ∧ contractOf dir subject version = some doc ∧ read doc = schema) := by
  have hcontract : ∃ doc, contractOf dir subject version = some doc ∧ read doc = schema := by
    unfold SchemaRegistry.get at hfound
    split at hfound
    · rename_i s hfiles
      obtain rfl := Except.ok.inj hfound
      obtain ⟨file, hfile, hread⟩ := Option.bind_eq_some_iff.mp hfiles
      obtain ⟨doc, hdoc, hschema⟩ := Option.map_eq_some_iff.mp hread
      exact ⟨doc, Option.bind_eq_some_iff.mpr ⟨file, hfile, hdoc⟩, hschema⟩
    · cases hfound
  obtain ⟨doc, hdoc, hschema⟩ := hcontract
  rw [loaded_append, List.foldl_cons]
  rcases loadSchemas_cases env dir (loaded before) with ⟨e, hrun⟩ | ⟨records, hdiscover, hrun⟩
  · rw [hrun] at hreturned
    cases hreturned
  · have hafter : afterRun (loaded before) (env, dir) = records.foldl (upsert env.now) (loaded before) :=
      congrArg Prod.snd hrun
    rw [hafter]
    refine ⟨admits_runs later ?_, fun hgrows hascii hversion => ?_⟩
    · obtain ⟨file, hfile, -⟩ := Option.bind_eq_some_iff.mp hdoc
      obtain ⟨hmem, hname⟩ := contractFile_eq_some.mp hfile
      refine admits_discovered hdiscover env.now _ (listed_of_canonical hmem hname) ?_
      unfold Writes
      rw [hname]
      exact parse_canonicalName hsubject version
    · have hlater : ∀ run ∈ later, AsciiVersions run.2 ∧ contractOf run.2 subject version = some doc :=
        fun run hrun => ⟨hascii run (List.mem_cons_of_mem _ hrun), contractOf_grows (hgrows run hrun) hdoc⟩
      have hfirst := canonical_registered hdiscover (hascii (env, dir) List.mem_cons_self) env.now (loaded before)
        hsubject hversion hdoc
      obtain ⟨row, hrow, htext⟩ := registered_runs hsubject hversion hlater ⟨_, hfirst, rfl⟩
      exact ⟨row, doc, hrow, htext, hdoc, hschema⟩

/-- One version, written in two ways. -/
def twice : Directory where
  files := [⟨"a.v1.json", "{}"⟩, ⟨"a.v01.json", "[]"⟩]
  nodup := by decide

def newYear : Env where
  now := "2026-01-01T00:00:00+00:00"

theorem asciiVersions_twice : AsciiVersions twice := by
  have hall : (twice.files.all fun file => file.name.toList.all fun c => !isDigit c || c.isDigit) = true := by
    decide +kernel
  intro file hfile c hc hdigit
  have hone := List.all_eq_true.mp (List.all_eq_true.mp hall file hfile) c hc
  simpa [hdigit] using hone

/-- The later of the two names is registered, and read by the agents. -/
theorem registered_for_agents_twice :
    ∃ row doc, loaded ([] ++ (newYear, twice) :: []) ("a", 1) = some row ∧ row.jsonSchema = dumps .default doc ∧
      contractOf twice "a" 1 = some doc ∧ (fun _ => Schema.mk {} [] none) doc = Schema.mk {} [] none := by
  refine (registered_for_agents [] [] newYear twice
    (show (loadSchemas newYear twice (loaded [])).1 = .ok 2 by decide +kernel) "schemas"
    (fun _ => .mk {} [] none) (fun _ _ => "") ⟨by decide, by decide⟩
    (show (registry twice "schemas" (fun _ => .mk {} [] none) fun _ _ => "").get "a" (.int 1) =
      .ok (.mk {} [] none) from rfl)).2 nofun ?_ (Nat.le_refl 1)
  intro run hrun
  rw [List.mem_singleton.mp hrun]
  exact asciiVersions_twice

end Bootstrap

end CaviErp
