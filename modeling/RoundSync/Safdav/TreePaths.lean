import RoundSync.Text.JavaString
import RoundSync.Text.Separated

/-!
# Tree permissions and their paths

A document of the Android storage provider is named by a volume and the names
on the way from the root of the volume.  A persisted permission is the tree URI
of such a document: its path in decoded form, and its text, in which the
document id is percent-encoded.
-/

namespace RoundSync.Safdav

open RoundSync.Text

/-- A text of the source. -/
def text (s : String) : JavaString :=
  s.toList

def ANDROID_PROVIDER_AUTHORITY : JavaString :=
  text "com.android.externalstorage.documents"

/-! ## Names -/

/-- A file name: not empty, and without a slash. -/
abbrev Name := { name : JavaString // name ≠ [] ∧ '/' ∉ name }

/-- A volume id: not empty, without a colon and without a slash. -/
abbrev Volume := { volume : JavaString // volume ≠ [] ∧ ':' ∉ volume ∧ '/' ∉ volume }

/-- The volume of the internal storage. -/
def primaryVolume : Volume :=
  ⟨text "primary", by decide⟩

/-- The names with slashes between them. -/
def joined : List Name → JavaString
  | [] => []
  | [name] => name.val
  | name :: next :: rest => name.val ++ '/' :: joined (next :: rest)

@[simp]
theorem joined_nil : joined [] = [] :=
  rfl

@[simp]
theorem joined_singleton (name : Name) : joined [name] = name.val :=
  rfl

theorem joined_cons {names : List Name} (more : names ≠ []) (name : Name) :
    joined (name :: names) = name.val ++ '/' :: joined names := by
  cases names with
  | nil => contradiction
  | cons next rest => rfl

theorem joined_append {first second : List Name} (left : first ≠ []) (right : second ≠ []) :
    joined (first ++ second) = joined first ++ '/' :: joined second := by
  induction first with
  | nil => contradiction
  | cons name first ih =>
      cases first with
      | nil => exact joined_cons right name
      | cons next rest =>
          rw [List.cons_append, joined_cons (by simp) name, ih (by simp),
            joined_cons (by simp) name, List.append_assoc, List.cons_append]

theorem joined_eq_nil_iff {names : List Name} : joined names = [] ↔ names = [] := by
  cases names with
  | nil => simp
  | cons name rest =>
      cases rest with
      | nil => simpa using name.property.1
      | cons next rest => simp [joined]

/-- The joined names do not begin with a slash. -/
theorem joined_ne_slash_cons (names : List Name) (rest : JavaString) :
    joined names ≠ '/' :: rest := by
  cases names with
  | nil => simp
  | cons name names =>
      intro equal
      obtain ⟨letter, letters, nameEq⟩ := List.exists_cons_of_ne_nil name.property.1
      have starts : letter = '/' := by
        cases names with
        | nil =>
            rw [joined_singleton, nameEq] at equal
            exact (List.cons.inj equal).1
        | cons next names =>
            rw [joined_cons (by simp), nameEq] at equal
            exact (List.cons.inj equal).1
      exact name.property.2 (by rw [nameEq, starts]; exact List.mem_cons_self)

/-- The joined names do not end in a slash. -/
theorem joined_ne_append_slash (names : List Name) (start : JavaString) :
    joined names ≠ start ++ ['/'] := by
  induction names generalizing start with
  | nil => simp
  | cons name names ih =>
      intro equal
      cases names with
      | nil =>
          rw [joined_singleton] at equal
          exact name.property.2 (by simp [equal])
      | cons next names =>
          rw [joined_cons (by simp)] at equal
          obtain ⟨letters, letter, lastEq⟩ :=
            List.eq_nil_or_concat (joined (next :: names)) |>.resolve_left
              (joined_eq_nil_iff.not.mpr (by simp))
          rw [lastEq, List.concat_eq_append, ← List.cons_append, ← List.append_assoc] at equal
          have ends := List.append_inj_right' equal rfl
          exact ih letters (by rw [lastEq, List.concat_eq_append, ends])

/-- The names from a permission down to a descendant: at least one. -/
abbrev ChildPath := { names : List Name // names ≠ [] }

theorem joined_child_ne_nil (child : ChildPath) : joined child.val ≠ [] :=
  joined_eq_nil_iff.not.mpr child.property

/-! ## Permissions -/

/-- A tree URI of the Android storage provider. -/
structure Permission where
  volume : Volume
  names : List Name
  deriving DecidableEq

/-- The path of an external-storage tree URI, before and after the document id. -/
def treePath (documentId : JavaString) : JavaString :=
  text "/tree/" ++ documentId

namespace Permission

def documentId (uri : Permission) : JavaString :=
  uri.volume.val ++ ':' :: joined uri.names

/-- `getPath`, which is decoded. -/
def path (uri : Permission) : JavaString :=
  treePath uri.documentId

end Permission

end RoundSync.Safdav
