import Tename.Sandbox.Tools

/-!
# Edits of a file

An edit reads a file through `cat`, replaces text and uploads the whole of it anew. In
between the bytes are decoded and encoded again, and the matches are the ones that a scan
counts. A file of bytes that are not UTF-8 is changed where nothing matched, and a pattern
that overlaps itself can be edited at one of two places without a word.
-/

namespace Tename

open Docker

variable {σ : Type}

/-- A container that keeps files: `cat` prints them, an upload stores its bytes, and
nothing else that an edit does changes them. -/
structure StoresFiles (docker : DockerHandler σ) (c : Container)
    (files : σ → String → Option (List UInt8)) : Prop where
  cat : ∀ path s bytes, files s path = some bytes → ∃ out s',
    docker (.execRun c ["cat", "--", path]) s = (.ok out, s') ∧ out.exitCode.getD 0 = 0 ∧
      out.stdout.getD [] = bytes
  cat_keeps : ∀ path s, files (docker (.execRun c ["cat", "--", path]) s).2 = files s
  mkdir_keeps : ∀ directory s, files (docker (.execRun c ["mkdir", "-p", directory]) s).2 = files s
  put : ∀ path data s s', NamesFile path →
    docker (.putArchive c (uploadTarget path).1 ⟨(uploadTarget path).2, data⟩) s = (.ok true, s') →
      files s' path = some data

/-- The input of an edit. -/
def editInput (path oldStr newStr : String) (replaceAll : Bool) : Payload :=
  [("path", .str path), ("old_str", .str oldStr), ("new_str", .str newStr),
    ("replace_all", .bool replaceAll)]

/-- The matches in a text that an edit goes on with. -/
def Editable (original oldStr : List Char) (replaceAll : Bool) : Prop :=
  Matching.count oldStr original = 1 ∨ 1 < Matching.count oldStr original ∧ replaceAll = true

instance (original oldStr : List Char) (replaceAll : Bool) :
    Decidable (Editable original oldStr replaceAll) :=
  inferInstanceAs (Decidable (_ ∨ _))

/-- The operations of an edit. -/
inductive EditOp (c : Container) : DockerOp → Prop
  | cat (path : String) : EditOp c (.execRun c ["cat", "--", path])
  | upload {o : DockerOp} (uploads : UploadOp c o) : EditOp c o

/-- An upload, begun. -/
def DockerOp.puts : DockerOp → Bool
  | .putArchive .. => true
  | _ => false

variable {repr : String → String} {docker : DockerHandler σ} {c : Container}
variable {files : σ → String → Option (List UInt8)} {path oldStr newStr : String}
variable {replaceAll : Bool} {s : σ} {bytes : List UInt8}

theorem within_editFile : (editFile repr c path oldStr newStr replaceAll).Within (EditOp c) := by
  refine .bind (.bind (Program.within_perform (.cat path)) fun out => trivial) fun read => ?_
  split
  · exact trivial
  · unfold editText
    dsimp only
    split
    · exact trivial
    · split
      · exact trivial
      · refine .bind (within_except ((within_putFile repr c _ _).mono fun o => .upload))
          fun done => ?_
        cases done with
        | ok a => exact trivial
        | error e => exact trivial

/-- Without an upload, an edit changes no file. -/
theorem StoresFiles.keeps (stores : StoresFiles docker c files) (path' : String)
    (without : ∀ o ∈ (editFile repr c path oldStr newStr replaceAll).trace docker s,
      o.puts = false) :
    files ((editFile repr c path oldStr newStr replaceAll).run docker s).2 path' =
      files s path' := by
  have untouched : ∀ o s', EditOp c o → ¬ o.puts = true → files s' path' = files s path' →
      files (docker o s').2 path' = files s path' := by
    intro o s' allowed other same
    cases allowed with
    | cat path => rw [stores.cat_keeps, same]
    | upload uploads =>
        cases uploads with
        | mkdir directory => rw [stores.mkdir_keeps, same]
        | put directory file => exact absurd rfl other
  exact within_editFile.keeps (fun o mem => by simp [without o mem]) untouched rfl

/-- What an upload stores can be read. -/
theorem StoresFiles.uploaded (stores : StoresFiles docker c files) {content : String} {s' : σ}
    (uploaded : (putFile repr c path content).run docker s = (.ok (), s')) :
    files s' path = some (Utf8.encode content.toList) := by
  have uploads := uploads_putFile repr docker c path content s
  rw [uploaded] at uploads
  generalize outcome : (Except.ok () : Except DockerExn Unit) = r at uploads
  cases uploads with
  | refused => cases outcome
  | unmade => cases outcome
  | failed => cases outcome
  | @put out s₁ s₂ stored names made code put =>
      cases stored with
      | error e => cases outcome
      | ok ok =>
          cases ok with
          | false => cases outcome
          | true => exact stores.put path _ _ _ names put

theorem decodeStream_eq (stream : Option (List UInt8)) :
    decodeStream stream = .ofList (Utf8.decodeReplace (stream.getD [])) := by
  cases stream with
  | none => rfl
  | some bytes => rfl

theorem run_editFile (stores : StoresFiles docker c files) (file : files s path = some bytes) :
    (editFile repr c path oldStr newStr replaceAll).run docker s =
      (editText repr c path oldStr newStr replaceAll
        (.ofList (Utf8.decodeReplace bytes))).run docker
          (docker (.execRun c ["cat", "--", path]) s).2 := by
  obtain ⟨out, s₁, printed, code, stdout⟩ := stores.cat path s bytes file
  have ran := run_runExec docker c ["cat", "--", path] s
  rw [printed] at ran ⊢
  rw [editFile, Program.monad_bind_eq, Program.run_bind_ok ran,
    if_neg (by simpa [ExecOutput.ran] using code), ← stdout, ← decodeStream_eq]
  rfl

/-- A text without a match to go on with is not edited. -/
theorem run_editText_of_not_editable {original : String}
    (other : ¬ Editable original.toList oldStr.toList replaceAll) (s : σ) :
    ∃ m, (editText repr c path oldStr newStr replaceAll original).run docker s =
      (.ok (failedResult m), s) := by
  unfold Editable at other
  unfold editText
  dsimp only
  split
  · exact ⟨_, rfl⟩
  · rename_i some'
    rw [if_pos]
    · exact ⟨_, rfl⟩
    · refine ⟨by omega, ?_⟩
      cases replaceAll with
      | false => rfl
      | true => exact absurd (show _ ∨ _ by simp; omega) other

/-- Any other one is uploaded, edited. -/
theorem run_editText_of_editable {original : String}
    (editable : Editable original.toList oldStr.toList replaceAll) (s : σ) :
    (editText repr c path oldStr newStr replaceAll original).run docker s =
      match (putFile repr c path (edited original oldStr newStr replaceAll)).run docker s with
      | (.ok (), s') => (.ok (editResult path (Matching.count oldStr.toList original.toList)), s')
      | (.error e, s') =>
          (if e.isException then .ok (failedResult ("file_edit: " ++ e.message)) else .error e,
            s') := by
  unfold editText
  dsimp only
  rw [if_neg (by unfold Editable at editable; omega), if_neg, Program.monad_bind_eq,
    Program.run_bind, run_except]
  · rcases (putFile repr c path (edited original oldStr newStr replaceAll)).run docker s with
      ⟨e | ⟨⟩, s'⟩
    · dsimp only
      cases e.isException with
      | false => rfl
      | true => rfl
    · rfl
  · rintro ⟨many, only⟩
    rcases editable with one | ⟨_, all⟩
    · omega
    · rw [only] at all
      cases all

section Frame

/-- The tool called with a path, two strings and the flag. -/
def fileEdit (repr : String → String) (docker : DockerHandler σ) (c : Container)
    (path oldStr newStr : String) (replaceAll : Bool) (s : σ) : Except DockerExn ToolResult × σ :=
  (fileEditTool repr c (editInput path oldStr newStr replaceAll)).run docker s

/-- The edit of a file ends without an error. -/
def Succeeds (ended : Except DockerExn ToolResult × σ) : Prop :=
  ∃ r, ended.1 = .ok r ∧ r.isError = false

/-- The edit of a file ends with an error. -/
def Fails (ended : Except DockerExn ToolResult × σ) : Prop :=
  ∃ r, ended.1 = .ok r ∧ r.isError = true

/-- An edit that succeeds changes the bytes of the matches, one if the flag is not set, and
no other byte; one that fails before its upload changes nothing. -/
structure FramesEdit (repr : String → String) (docker : DockerHandler σ) (c : Container)
    (files : σ → String → Option (List UInt8)) (path oldStr newStr : String)
    (replaceAll : Bool) (s : σ) : Prop where
  replaced : Succeeds (fileEdit repr docker c path oldStr newStr replaceAll s) →
    ∃ before after matches', files s path = some before ∧
      files (fileEdit repr docker c path oldStr newStr replaceAll s).2 path = some after ∧
      matches' = Matching.count oldStr.toList (Utf8.decodeReplace before) ∧
      (replaceAll = false → matches' = 1) ∧
      Matching.Replaced (Utf8.encode oldStr.toList) (Utf8.encode newStr.toList) matches' before
        after
  untouched : Fails (fileEdit repr docker c path oldStr newStr replaceAll s) →
    (∀ o ∈ (fileEditTool repr c (editInput path oldStr newStr replaceAll)).trace docker s,
      o.puts = false) →
    files (fileEdit repr docker c path oldStr newStr replaceAll s).2 path = files s path

theorem fileEditTool_of_path (named : path ≠ "") :
    fileEditTool repr c (editInput path oldStr newStr replaceAll) =
      editFile repr c path oldStr newStr replaceAll := by
  have given : pathInput (editInput path oldStr newStr replaceAll) "path" = some path := by
    change (some path).filter (· ≠ "") = some path
    simp [Option.filter, named]
  unfold fileEditTool
  rw [given]
  rfl

theorem fileEditTool_of_no_path :
    fileEditTool repr c (editInput "" oldStr newStr replaceAll) =
      .pure (missing "file_edit" "path") := rfl

theorem not_names_of_empty : ¬ NamesFile "" := by decide

/-- Where the path does not name a file, the upload refuses it. -/
theorem putFile_of_not_names (repr : String → String) (docker : DockerHandler σ) (c : Container)
    (bad : ¬ NamesFile path) (content : String) (s : σ) :
    ∃ m, (putFile repr c path content).run docker s = (.error (.other (.other m)), s) := by
  have uploads := uploads_putFile repr docker c path content s
  generalize (putFile repr c path content).run docker s = ended at uploads ⊢
  obtain ⟨outcome, s'⟩ := ended
  cases uploads with
  | refused => exact ⟨_, rfl⟩
  | unmade names => exact absurd names bad
  | failed names => exact absurd names bad
  | put names => exact absurd names bad

theorem replaced_encode {old new before after : List Char} {n : Nat}
    (h : Matching.Replaced old new n before after) :
    Matching.Replaced (Utf8.encode old) (Utf8.encode new) n (Utf8.encode before)
      (Utf8.encode after) := by
  obtain ⟨gaps, length, rfl, rfl⟩ := h
  exact ⟨gaps.map Utf8.encode, by simpa using length, Utf8.encode_intercalate _ _,
    Utf8.encode_intercalate _ _⟩

theorem weight_replaced {old new before after : List UInt8} {n : Nat}
    (h : Matching.Replaced old new n before after) :
    Utf8.weight before + n * Utf8.weight new = Utf8.weight after + n * Utf8.weight old := by
  obtain ⟨gaps, length, rfl, rfl⟩ := h
  rw [Utf8.weight_intercalate, Utf8.weight_intercalate, length, Nat.add_sub_cancel]
  omega

/-- On the text of the file an edit does what it is for. -/
theorem replaced_edited (original newStr : String)
    (editable : Editable original.toList oldStr.toList replaceAll) :
    Matching.Replaced oldStr.toList newStr.toList (Matching.count oldStr.toList original.toList)
      original.toList (edited original oldStr newStr replaceAll).toList := by
  rw [edited, String.toList_ofList]
  cases replaceAll with
  | true => exact Matching.replaced_replace _ _ _
  | false =>
      rcases editable with one | ⟨_, impossible⟩
      · rw [one]
        exact Matching.replaced_replaceFirst one _
      · cases impossible

/-- The bytes an edit uploads differ from the file in the matches alone just in case the
file is UTF-8. -/
theorem replaced_iff_isUtf8
    (editable : Editable (Utf8.decodeReplace bytes) oldStr.toList replaceAll) :
    Matching.Replaced (Utf8.encode oldStr.toList) (Utf8.encode newStr.toList)
        (Matching.count oldStr.toList (Utf8.decodeReplace bytes)) bytes
        (Utf8.encode
          (edited (.ofList (Utf8.decodeReplace bytes)) oldStr newStr replaceAll).toList) ↔
      Utf8.IsUtf8 bytes := by
  have listed : (String.ofList (Utf8.decodeReplace bytes)).toList = Utf8.decodeReplace bytes :=
    String.toList_ofList
  have text := replaced_encode
    (replaced_edited (.ofList (Utf8.decodeReplace bytes)) newStr
      (show Editable _ oldStr.toList replaceAll by rwa [listed]))
  rw [listed] at text
  constructor
  · intro same
    have before := weight_replaced same
    have decoded := weight_replaced text
    exact Utf8.isUtf8_iff_weight.mpr (by omega)
  · intro utf8
    rw [Utf8.isUtf8_iff.mp utf8] at text
    exact text

/-- The upload of an edit, behind the reading of the file. -/
def editUpload (repr : String → String) (docker : DockerHandler σ) (c : Container)
    (path oldStr newStr : String) (replaceAll : Bool) (bytes : List UInt8) (s : σ) :
    Except DockerExn Unit × σ :=
  (putFile repr c path (edited (.ofList (Utf8.decodeReplace bytes)) oldStr newStr replaceAll)).run
    docker (docker (.execRun c ["cat", "--", path]) s).2

/-- An edit of a file without a match to go on with. -/
theorem fileEdit_of_not_editable (repr : String → String) (newStr : String)
    (stores : StoresFiles docker c files)
    (file : files s path = some bytes) (named : path ≠ "")
    (other : ¬ Editable (Utf8.decodeReplace bytes) oldStr.toList replaceAll) :
    ∃ m, fileEdit repr docker c path oldStr newStr replaceAll s =
      (.ok (failedResult m), (docker (.execRun c ["cat", "--", path]) s).2) := by
  rw [fileEdit, fileEditTool_of_path named, run_editFile stores file]
  exact run_editText_of_not_editable (by rwa [String.toList_ofList]) _

/-- An edit of a file with a match to go on with ends as its upload does. -/
theorem fileEdit_of_editable (stores : StoresFiles docker c files)
    (file : files s path = some bytes) (named : path ≠ "")
    (editable : Editable (Utf8.decodeReplace bytes) oldStr.toList replaceAll) :
    fileEdit repr docker c path oldStr newStr replaceAll s =
      match editUpload repr docker c path oldStr newStr replaceAll bytes s with
      | (.ok (), s') =>
          (.ok (editResult path (Matching.count oldStr.toList (Utf8.decodeReplace bytes))), s')
      | (.error e, s') =>
          (if e.isException then .ok (failedResult ("file_edit: " ++ e.message)) else .error e,
            s') := by
  rw [fileEdit, fileEditTool_of_path named, run_editFile stores file,
    run_editText_of_editable (by rwa [String.toList_ofList]), String.toList_ofList]
  rfl

theorem fileEdit_of_no_path : fileEdit repr docker c "" oldStr newStr replaceAll s =
    (.ok (missing "file_edit" "path"), s) := by
  rw [fileEdit, fileEditTool_of_no_path]
  rfl

theorem not_succeeds_of_failed {m : String} {s' : σ} :
    ¬ Succeeds (Except.ok (failedResult m), s') := by
  rintro ⟨r, returned, succeeded⟩
  cases returned
  cases succeeded

/-- An edit succeeds just in case there is a match to go on with and the upload goes through. -/
theorem succeeds_iff (stores : StoresFiles docker c files) (file : files s path = some bytes) :
    Succeeds (fileEdit repr docker c path oldStr newStr replaceAll s) ↔
      Editable (Utf8.decodeReplace bytes) oldStr.toList replaceAll ∧
        (editUpload repr docker c path oldStr newStr replaceAll bytes s).1 = .ok () := by
  by_cases named : path = ""
  · subst named
    rw [fileEdit_of_no_path]
    refine iff_of_false not_succeeds_of_failed ?_
    rintro ⟨_, uploaded⟩
    obtain ⟨m, refused⟩ := putFile_of_not_names repr docker c not_names_of_empty
      (edited (.ofList (Utf8.decodeReplace bytes)) oldStr newStr replaceAll)
      (docker (.execRun c ["cat", "--", ""]) s).2
    rw [editUpload, refused] at uploaded
    cases uploaded
  · by_cases editable : Editable (Utf8.decodeReplace bytes) oldStr.toList replaceAll
    · rw [fileEdit_of_editable stores file named editable]
      cases ended : editUpload repr docker c path oldStr newStr replaceAll bytes s with
      | mk outcome s' =>
          cases outcome with
          | ok done => exact iff_of_true ⟨_, rfl, rfl⟩ ⟨editable, rfl⟩
          | error e =>
              refine iff_of_false ?_ (by rintro ⟨_, impossible⟩; cases impossible)
              dsimp only
              split
              · exact not_succeeds_of_failed
              · rintro ⟨r, impossible, _⟩
                cases impossible
    · obtain ⟨m, ended⟩ := fileEdit_of_not_editable repr newStr stores file named editable
      rw [ended]
      exact iff_of_false not_succeeds_of_failed fun both => editable both.1

/-- What an edit that succeeds leaves in the file. -/
theorem file_of_succeeds (stores : StoresFiles docker c files) (file : files s path = some bytes)
    (succeeds : Succeeds (fileEdit repr docker c path oldStr newStr replaceAll s)) :
    files (fileEdit repr docker c path oldStr newStr replaceAll s).2 path =
      some (Utf8.encode
        (edited (.ofList (Utf8.decodeReplace bytes)) oldStr newStr replaceAll).toList) := by
  obtain ⟨editable, uploaded⟩ := (succeeds_iff stores file).mp succeeds
  have named : path ≠ "" := by
    rintro rfl
    rw [fileEdit_of_no_path] at succeeds
    exact not_succeeds_of_failed succeeds
  rw [fileEdit_of_editable stores file named editable]
  cases ended : editUpload repr docker c path oldStr newStr replaceAll bytes s with
  | mk outcome s' =>
      rw [ended] at uploaded
      obtain rfl : outcome = .ok () := uploaded
      exact stores.uploaded ended

/-- An edit frames its file just in case the file is UTF-8 or the edit does not go through:
there is no match to go on with, or the upload fails. -/
theorem file_edit_frame_iff (stores : StoresFiles docker c files)
    (file : files s path = some bytes) :
    FramesEdit repr docker c files path oldStr newStr replaceAll s ↔
      (Editable (Utf8.decodeReplace bytes) oldStr.toList replaceAll →
        (editUpload repr docker c path oldStr newStr replaceAll bytes s).1 = .ok () →
        Utf8.IsUtf8 bytes) := by
  constructor
  · intro frames editable uploaded
    have succeeds := (succeeds_iff stores file).mpr ⟨editable, uploaded⟩
    obtain ⟨before, after, n, same, stored, rfl, _, replaced⟩ := frames.replaced succeeds
    rw [file] at same
    obtain rfl := Option.some.inj same
    rw [file_of_succeeds stores file succeeds] at stored
    obtain rfl := Option.some.inj stored
    exact (replaced_iff_isUtf8 editable).mp replaced
  · intro utf8
    constructor
    · intro succeeds
      obtain ⟨editable, uploaded⟩ := (succeeds_iff stores file).mp succeeds
      refine ⟨bytes, _, _, file, file_of_succeeds stores file succeeds, rfl, ?_,
        (replaced_iff_isUtf8 editable).mpr (utf8 editable uploaded)⟩
      intro single
      rcases editable with one | ⟨_, all⟩
      · exact one
      · rw [single] at all
        cases all
    · intro _ without
      by_cases named : path = ""
      · subst named
        rw [fileEdit_of_no_path]
      · rw [fileEditTool_of_path named] at without
        rw [fileEdit, fileEditTool_of_path named]
        exact stores.keeps path without

end Frame

section Ambiguity

open Matching

/-- Without the flag, an edit succeeds just in case there is one position it can be about;
it is made there, and in every other case the edit fails and changes nothing. -/
structure EditsOnly (repr : String → String) (docker : DockerHandler σ) (c : Container)
    (files : σ → String → Option (List UInt8)) (path oldStr newStr original : String) (s : σ) :
    Prop where
  succeeds : Succeeds (fileEdit repr docker c path oldStr newStr false s) ↔
    (positions oldStr.toList original.toList).length = 1
  replaces : ∀ i, positions oldStr.toList original.toList = [i] →
    Succeeds (fileEdit repr docker c path oldStr newStr false s) →
      files (fileEdit repr docker c path oldStr newStr false s).2 path = some (Utf8.encode
        (original.toList.take i ++ newStr.toList ++
          original.toList.drop (i + oldStr.toList.length)))
  fails : (positions oldStr.toList original.toList).length ≠ 1 →
    Fails (fileEdit repr docker c path oldStr newStr false s) ∧
      files (fileEdit repr docker c path oldStr newStr false s).2 path = files s path

/-- Two occurrences that do not overlap. -/
def OccursApart (old text : List Char) : Prop :=
  ∃ i j, OccursAt old text i ∧ OccursAt old text j ∧ i < j ∧ i + old.length ≤ j

/-- An upload ends with an exception that is caught, and leaves the file as it was. -/
def Refused (files : σ → String → Option (List UInt8)) (path : String) (s : σ)
    (ended : Except DockerExn Unit × σ) : Prop :=
  (∃ e, ended.1 = .error e ∧ e.isException = true) ∧ files ended.2 path = files s path

variable {original : String}

theorem editable_single_iff {text old : List Char} :
    Editable text old false ↔ count old text = 1 := by
  simp [Editable]

theorem count_of_one_position {old text : List Char} (one : (positions old text).length = 1) :
    count old text = 1 := by
  have some' : count old text ≠ 0 := by
    intro none'
    rw [positions_eq_nil_iff.mpr none'] at one
    cases one
  have few : ¬ 1 < count old text := by
    intro many
    obtain ⟨i, j, first, second, apart, _⟩ := one_lt_count_iff.mp many
    have two := one_lt_positions_iff.mpr ⟨i, j, first, second, apart⟩
    omega
  omega

/-- A single match is edited at the only position there is. -/
theorem edited_of_one_position {i : Nat} (only : positions oldStr.toList original.toList = [i]) :
    (edited original oldStr newStr false).toList = original.toList.take i ++ newStr.toList ++
      original.toList.drop (i + oldStr.toList.length) := by
  have one : count oldStr.toList original.toList = 1 :=
    count_of_one_position (by rw [only]; rfl)
  obtain ⟨i', occurs, replaced⟩ := replaceFirst_of_one one
  have same : i' = i := by
    have mem := mem_positions.mpr occurs
    rw [only] at mem
    exact List.mem_singleton.mp mem
  rw [edited, String.toList_ofList, if_neg (by decide), replaced, same]

/-- Without a single match an edit fails and changes nothing. -/
theorem fails_of_count_ne_one (stores : StoresFiles docker c files)
    (file : files s path = some (Utf8.encode original.toList))
    (other : count oldStr.toList original.toList ≠ 1) :
    Fails (fileEdit repr docker c path oldStr newStr false s) ∧
      files (fileEdit repr docker c path oldStr newStr false s).2 path = files s path := by
  by_cases named : path = ""
  · subst named
    rw [fileEdit_of_no_path]
    exact ⟨⟨_, rfl, rfl⟩, rfl⟩
  · have barred : ¬ Editable (Utf8.decodeReplace (Utf8.encode original.toList)) oldStr.toList
        false := by
      rwa [Utf8.decodeReplace_encode, editable_single_iff]
    obtain ⟨m, ended⟩ := fileEdit_of_not_editable repr newStr stores file named barred
    rw [ended]
    exact ⟨⟨_, rfl, rfl⟩, congrFun (stores.cat_keeps path s) path⟩

/-- With a single match it fails and changes nothing just in case its upload does. -/
theorem fails_iff_refused (stores : StoresFiles docker c files)
    (file : files s path = some (Utf8.encode original.toList))
    (one : count oldStr.toList original.toList = 1) :
    Fails (fileEdit repr docker c path oldStr newStr false s) ∧
        files (fileEdit repr docker c path oldStr newStr false s).2 path = files s path ↔
      Refused files path s
        (editUpload repr docker c path oldStr newStr false (Utf8.encode original.toList) s) := by
  by_cases named : path = ""
  · subst named
    obtain ⟨m, refused⟩ := putFile_of_not_names repr docker c not_names_of_empty
      (edited (.ofList (Utf8.decodeReplace (Utf8.encode original.toList))) oldStr newStr false)
      (docker (.execRun c ["cat", "--", ""]) s).2
    rw [fileEdit_of_no_path, editUpload, refused]
    exact iff_of_true ⟨⟨_, rfl, rfl⟩, rfl⟩
      ⟨⟨_, rfl, rfl⟩, congrFun (stores.cat_keeps "" s) ""⟩
  · rw [fileEdit_of_editable stores file named
      (by rwa [Utf8.decodeReplace_encode, editable_single_iff])]
    cases ended : editUpload repr docker c path oldStr newStr false (Utf8.encode original.toList)
        s with
    | mk outcome s' =>
        cases outcome with
        | ok done =>
            constructor
            · rintro ⟨⟨r, returned, failed⟩, _⟩
              cases returned
              cases failed
            · rintro ⟨⟨e, impossible, _⟩, _⟩
              cases impossible
        | error e =>
            dsimp only
            cases caught : e.isException with
            | true =>
                rw [if_pos rfl]
                exact ⟨fun h => ⟨⟨e, rfl, caught⟩, h.2⟩, fun h => ⟨⟨_, rfl, rfl⟩, h.2⟩⟩
            | false =>
                rw [if_neg (by decide)]
                constructor
                · rintro ⟨⟨r, impossible, _⟩, _⟩
                  cases impossible
                · rintro ⟨⟨e', raised, caught'⟩, _⟩
                  cases raised
                  rw [caught] at caught'
                  cases caught'

/-- An edit without the flag is about a single position just in case two positions are never
all there are and overlap, and uploads go through where there is one. -/
theorem file_edit_only_iff (stores : StoresFiles docker c files)
    (file : files s path = some (Utf8.encode original.toList)) :
    EditsOnly repr docker c files path oldStr newStr original s ↔
      ((positions oldStr.toList original.toList).length = 1 →
        (editUpload repr docker c path oldStr newStr false (Utf8.encode original.toList) s).1 =
          .ok ()) ∧
      (1 < (positions oldStr.toList original.toList).length →
        OccursApart oldStr.toList original.toList ∨
          Refused files path s
            (editUpload repr docker c path oldStr newStr false (Utf8.encode original.toList)
              s)) := by
  have succeeded : Succeeds (fileEdit repr docker c path oldStr newStr false s) ↔ _ :=
    succeeds_iff stores file
  rw [Utf8.decodeReplace_encode, editable_single_iff] at succeeded
  have none' : positions oldStr.toList original.toList = [] ↔ _ := positions_eq_nil_iff
  have apart : 1 < count oldStr.toList original.toList ↔ _ := one_lt_count_iff
  constructor
  · intro h
    constructor
    · intro one
      exact (succeeded.mp (h.succeeds.mpr one)).2
    · intro many
      by_cases single : count oldStr.toList original.toList = 1
      · exact .inr ((fails_iff_refused stores file single).mp (h.fails (by omega)))
      · refine .inl (apart.mp ?_)
        have some' : count oldStr.toList original.toList ≠ 0 := by
          intro zero
          rw [none'.mpr zero] at many
          cases many
        omega
  · rintro ⟨uploads, overlaps⟩
    constructor
    · constructor
      · intro succeeds
        obtain ⟨single, uploaded⟩ := succeeded.mp succeeds
        have some' : (positions oldStr.toList original.toList).length ≠ 0 := by
          intro zero
          have zero := none'.mp (List.eq_nil_of_length_eq_zero zero)
          omega
        by_contra other
        rcases overlaps (by omega) with two | ⟨⟨e, raised, _⟩, _⟩
        · have two := apart.mpr two
          omega
        · rw [uploaded] at raised
          cases raised
      · intro one
        exact succeeded.mpr ⟨count_of_one_position one, uploads one⟩
    · intro i only succeeds
      rw [file_of_succeeds stores file succeeds, Utf8.decodeReplace_encode,
        String.ofList_toList, edited_of_one_position only]
    · intro other
      by_cases single : count oldStr.toList original.toList = 1
      · refine (fails_iff_refused stores file single).mpr ?_
        have some' : (positions oldStr.toList original.toList).length ≠ 0 := by
          intro zero
          have zero := none'.mp (List.eq_nil_of_length_eq_zero zero)
          omega
        rcases overlaps (by omega) with two | refused
        · have two := apart.mpr two
          omega
        · exact refused
      · exact fails_of_count_ne_one stores file single

end Ambiguity

section Memory

/-- Files by the directory and the name of their upload. -/
abbrev MemoryFiles := String × String → Option (List UInt8)

/-- A command in a container that knows `cat` and lets every other one pass. -/
def memoryExec (m : MemoryFiles) : List String → ExecOutput
  | [command, _, path] =>
      if command = "cat" then
        match m (uploadTarget path) with
        | some bytes => ⟨some 0, some bytes, none⟩
        | none => ⟨some 1, none, none⟩
      else ⟨some 0, none, none⟩
  | _ => ⟨some 0, none, none⟩

/-- A docker that keeps files in memory and does nothing else. -/
def memoryDocker : DockerHandler MemoryFiles
  | .execRun _ cmd, m => (.ok (memoryExec m cmd), m)
  | .putArchive _ directory file, m =>
      (.ok true, Function.update m (directory, file.name) (some file.data))
  | .containersRun _, m => (.ok ⟨0, none⟩, m)
  | .uuid4, m => (.ok (0 : Nat), m)
  | .client, m | .imagesGet _, m | .imagesPull _, m | .kill _, m => (.ok (), m)

def memoryFile (m : MemoryFiles) (path : String) : Option (List UInt8) :=
  m (uploadTarget path)

theorem memoryDocker_put (c : Container) (directory : String) (file : TarFile) (m : MemoryFiles) :
    memoryDocker (.putArchive c directory file) m =
      (.ok true, Function.update m (directory, file.name) (some file.data)) := rfl

theorem memory_storesFiles (c : Container) : StoresFiles memoryDocker c memoryFile where
  cat path m bytes file := by
    have file : m (uploadTarget path) = some bytes := file
    have printed : memoryExec m ["cat", "--", path] = ⟨some 0, some bytes, none⟩ := by
      rw [memoryExec, if_pos rfl, file]
    exact ⟨_, m, rfl, by rw [printed]; rfl, by rw [printed]; rfl⟩
  cat_keeps path m := rfl
  mkdir_keeps directory m := rfl
  put path data m m' _ stored := by
    have moved := congrArg Prod.snd stored
    rw [memoryDocker_put] at moved
    dsimp only at moved
    rw [← moved, memoryFile, Function.update_self]

/-- A memory with one file. -/
def oneFile (path : String) (bytes : List UInt8) : MemoryFiles :=
  Function.update (fun _ => none) (uploadTarget path) (some bytes)

/-- `repr(text)` of a text that has nothing to escape. -/
def plainRepr (text : String) : String :=
  "'" ++ text ++ "'"

/-- A file in Latin-1 is edited behind its first character, and loses it. -/
theorem edit_changes_unmatched :
    memoryFile (fileEdit plainRepr memoryDocker ⟨0, none⟩ "/f" "x" "y" false
      (oneFile "/f" [0xE9, 0x78])).2 "/f" = some [0xEF, 0xBF, 0xBD, 0x79] ∧
    ¬ FramesEdit plainRepr memoryDocker ⟨0, none⟩ memoryFile "/f" "x" "y" false
      (oneFile "/f" [0xE9, 0x78]) := by
  have file : memoryFile (oneFile "/f" [0xE9, 0x78]) "/f" = some [0xE9, 0x78] := by decide
  have stored : memoryFile (fileEdit plainRepr memoryDocker ⟨0, none⟩ "/f" "x" "y" false
      (oneFile "/f" [0xE9, 0x78])).2 "/f" = some [0xEF, 0xBF, 0xBD, 0x79] := by decide
  refine ⟨stored, fun frames => ?_⟩
  have succeeds : Succeeds (fileEdit plainRepr memoryDocker ⟨0, none⟩ "/f" "x" "y" false
      (oneFile "/f" [0xE9, 0x78])) :=
    (succeeds_iff (memory_storesFiles ⟨0, none⟩) file).mpr ⟨by decide, by decide⟩
  obtain ⟨before, after, n, file', stored', counted, single, replaced⟩ := frames.replaced succeeds
  obtain rfl := Option.some.inj (file.symm.trans file')
  obtain rfl := Option.some.inj (stored.symm.trans stored')
  have weighs := weight_replaced replaced
  rw [single rfl] at weighs
  exact absurd weighs (by decide)

/-- A file in UTF-8 keeps it. -/
theorem file_edit_frame_iff_utf8 :
    FramesEdit plainRepr memoryDocker ⟨0, none⟩ memoryFile "/f" "x" "y" false
      (oneFile "/f" [0xC3, 0xA9, 0x78]) := by
  have file : memoryFile (oneFile "/f" [0xC3, 0xA9, 0x78]) "/f" = some [0xC3, 0xA9, 0x78] := by
    decide
  have utf8 : Utf8.IsUtf8 [0xC3, 0xA9, 0x78] := by decide
  exact (file_edit_frame_iff (memory_storesFiles ⟨0, none⟩) file).mpr fun _ _ => utf8

/-- Two overlapping occurrences count as one match, and the first is edited. -/
theorem edit_at_two_positions : ¬ EditsOnly plainRepr memoryDocker ⟨0, none⟩ memoryFile "/f"
    "aa" "b" "aaa" (oneFile "/f" (Utf8.encode "aaa".toList)) := by
  intro only
  have file : memoryFile (oneFile "/f" (Utf8.encode "aaa".toList)) "/f" =
      some (Utf8.encode "aaa".toList) := by decide
  have succeeds : Succeeds (fileEdit plainRepr memoryDocker ⟨0, none⟩ "/f" "aa" "b" false
      (oneFile "/f" (Utf8.encode "aaa".toList))) :=
    (succeeds_iff (memory_storesFiles ⟨0, none⟩) file).mpr ⟨by decide, by decide⟩
  exact absurd (only.succeeds.mp succeeds) (by decide)

theorem file_edit_only_iff_single : EditsOnly plainRepr memoryDocker ⟨0, none⟩ memoryFile "/f"
    "b" "x" "abc" (oneFile "/f" (Utf8.encode "abc".toList)) :=
  (file_edit_only_iff (memory_storesFiles ⟨0, none⟩) (by decide)).mpr
    ⟨fun _ => by decide, fun two => absurd two (by decide)⟩

end Memory

end Tename
