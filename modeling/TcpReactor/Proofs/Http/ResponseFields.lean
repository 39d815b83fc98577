import Mathlib.Data.List.Induction
import Mathlib.Data.List.Nodup
import TcpReactor.Http.Response

namespace TcpReactor.Http.Response

/-! # The header fields of a response

A response is made up by calls: a header field is set, a text or other bytes become its body. What
these calls leave behind is a map whose names have no case, kept in a list:

* `Sets`, `sets_setField`: one call changes the entry of its name, or adds one at the end;
* `Collects`, `collects_built`: many calls leave one entry for each name, at the place and in the
  spelling of its first call, and with the value of its last;
* `fields_edited`: so it is for every response, whatever its status and whatever calls were made.
-/

/-! ## Names without case -/

variable {name name' value : String} {f : String × String} {fields set : List (String × String)}

/-- The name of a field, without its case. -/
def key (f : String × String) : String := f.1.toLower

/-- The fields of a name, whatever their case. -/
def namedIn (name : String) (fields : List (String × String)) : List (String × String) :=
  fields.filter (Text.sameIgnoringCase ·.1 name)

theorem same_iff : Text.sameIgnoringCase name name' = true ↔ name.toLower = name'.toLower :=
  beq_iff_eq

theorem same_eq_false :
    Text.sameIgnoringCase name name' = false ↔ name.toLower ≠ name'.toLower := by
  rw [← Bool.not_eq_true, same_iff]

theorem namedIn_cons_of_same (h : f.1.toLower = name.toLower) (fields : List (String × String)) :
    namedIn name (f :: fields) = f :: namedIn name fields :=
  List.filter_cons_of_pos (same_iff.mpr h)

theorem namedIn_cons_of_other (h : f.1.toLower ≠ name.toLower) (fields : List (String × String)) :
    namedIn name (f :: fields) = namedIn name fields :=
  List.filter_cons_of_neg (fun hsame => h (same_iff.mp hsame))

/-! ## Setting one field -/

theorem setField_cons_of_same (h : f.1.toLower = name.toLower) (value : String)
    (fields : List (String × String)) :
    setField name value (f :: fields) = (f.1, value) :: fields := by
  rw [setField, if_pos (same_iff.mpr h)]

theorem setField_cons_of_other (h : f.1.toLower ≠ name.toLower) (value : String)
    (fields : List (String × String)) :
    setField name value (f :: fields) = f :: setField name value fields := by
  rw [setField, if_neg fun hsame => h (same_iff.mp hsame)]

/-- No two fields have names that are equal but for their case. -/
def Distinct (fields : List (String × String)) : Prop :=
  fields.Pairwise fun f g => Text.sameIgnoringCase f.1 g.1 = false

/-- From one list of fields to the other `name` is set to `value`. -/
inductive Sets (name value : String) : List (String × String) → List (String × String) → Prop
  /-- The one entry of this name keeps its place and its spelling, and the others all they have. -/
  | replace (before after : List (String × String)) {spelling old : String} :
      Text.sameIgnoringCase spelling name = true →
      (∀ f ∈ before ++ after, Text.sameIgnoringCase f.1 name = false) →
      Sets name value (before ++ (spelling, old) :: after) (before ++ (spelling, value) :: after)
  /-- There was none, and all others are as they were. -/
  | add {fields : List (String × String)} :
      (∀ f ∈ fields, Text.sameIgnoringCase f.1 name = false) →
      Sets name value fields (fields ++ [(name, value)])

/-- A field of another name in front is not touched. -/
theorem Sets.cons {fields' : List (String × String)} (h : Sets name value fields fields')
    (hother : Text.sameIgnoringCase f.1 name = false) :
    Sets name value (f :: fields) (f :: fields') := by
  cases h with
  | replace before after hsame hothers =>
      exact .replace (f :: before) after hsame (List.forall_mem_cons.mpr ⟨hother, hothers⟩)
  | add hothers => exact .add (List.forall_mem_cons.mpr ⟨hother, hothers⟩)

theorem sets_setField (hdistinct : Distinct fields) :
    Sets name value fields (setField name value fields) := by
  induction fields with
  | nil => exact .add (List.forall_mem_nil _)
  | cons f fields ih =>
      obtain ⟨hfirst, hrest⟩ := List.pairwise_cons.mp hdistinct
      by_cases hsame : f.1.toLower = name.toLower
      · rw [setField_cons_of_same hsame]
        refine .replace [] fields (same_iff.mpr hsame) fun g hg => ?_
        -- whatever has another name than the entry has another name than the call
        rw [same_eq_false, ← hsame]
        exact Ne.symm (same_eq_false.mp (hfirst g hg))
      · rw [setField_cons_of_other hsame]
        exact (ih hrest).cons (same_eq_false.mpr hsame)

/-- A new name comes last, and an old one keeps its place. -/
theorem keys_setField (name value : String) (fields : List (String × String)) :
    (setField name value fields).map key =
      fields.map key ++ if name.toLower ∈ fields.map key then [] else [name.toLower] := by
  induction fields with
  | nil => rfl
  | cons f fields ih =>
      by_cases hsame : f.1.toLower = name.toLower
      · have hmem : name.toLower ∈ (f :: fields).map key := List.mem_cons.mpr (.inl hsame.symm)
        rw [setField_cons_of_same hsame, if_pos hmem, List.append_nil]
        rfl
      · have hmem : name.toLower ∈ (f :: fields).map key ↔ name.toLower ∈ fields.map key := by
          rw [List.map_cons, List.mem_cons]
          exact or_iff_right (Ne.symm hsame)
        rw [setField_cons_of_other hsame, List.map_cons, ih, if_congr hmem rfl rfl]
        rfl

/-- Only the fields of its own name are touched by a call, and they as if they were alone. -/
theorem namedIn_setField (name name' value : String) (fields : List (String × String)) :
    namedIn name' (setField name value fields) =
      if name.toLower = name'.toLower then setField name value (namedIn name' fields)
      else namedIn name' fields := by
  -- the call changes the first entry of its name or adds one, and goes past all others
  induction fields with
  | nil =>
      split
      · exact namedIn_cons_of_same ‹_› []
      · exact namedIn_cons_of_other ‹_› []
  | cons f fields ih =>
      by_cases hsame : f.1.toLower = name.toLower
      · rw [setField_cons_of_same hsame]
        split
        · rename_i hname
          rw [namedIn_cons_of_same (hsame.trans hname), setField_cons_of_same hsame]
          exact namedIn_cons_of_same (f := (f.1, value)) (hsame.trans hname) fields
        · rename_i hname
          rw [← hsame] at hname
          rw [namedIn_cons_of_other (f := f) hname]
          exact namedIn_cons_of_other (f := (f.1, value)) hname fields
      · rw [setField_cons_of_other hsame]
        by_cases hname' : f.1.toLower = name'.toLower
        · -- an entry of the name that is looked for is not the one that is set
          have hother : name.toLower ≠ name'.toLower := fun h => hsame (hname'.trans h.symm)
          rw [namedIn_cons_of_same hname', namedIn_cons_of_same hname', ih, if_neg hother,
            if_neg hother]
        · rw [namedIn_cons_of_other hname', namedIn_cons_of_other hname', ih]

/-! ## Setting many -/

/-- Set these fields, one after the other. -/
def built (set : List (String × String)) : List (String × String) :=
  set.foldl (fun fields f => setField f.1 f.2 fields) []

theorem built_concat (set : List (String × String)) (f : String × String) :
    built (set ++ [f]) = setField f.1 f.2 (built set) :=
  List.foldl_append

/-- What many calls with one name come to: the spelling of the first and the value of the last. -/
def merged : List (String × String) → List (String × String)
  | [] => []
  | first :: later => [(first.1, (later.getLastD first).2)]

theorem merged_concat (h : ∀ g ∈ set, g.1.toLower = f.1.toLower) :
    merged (set ++ [f]) = setField f.1 f.2 (merged set) := by
  cases set with
  | nil => rfl
  | cons first later =>
      have hfirst : first.1.toLower = f.1.toLower := h first List.mem_cons_self
      show [(first.1, ((later ++ [f]).getLastD first).2)] = _
      rw [List.getLastD_concat, merged]
      exact (setField_cons_of_same (f := (first.1, (later.getLastD first).2)) hfirst f.2 []).symm

/-- The fields come of setting the fields `set`, one after the other: they are a map of names
without case, in the order in which these were first set. -/
structure Collects (set fields : List (String × String)) : Prop where
  distinct : Distinct fields
  order : fields.map key = (set.map key).eraseDups
  entry : ∀ name, namedIn name fields = merged (namedIn name set)

theorem keys_built (set : List (String × String)) :
    (built set).map key = (set.map key).eraseDups := by
  induction set using List.reverseRecOn with
  | nil => rfl
  | append_singleton set f ih =>
      rw [built_concat, keys_setField, ih, List.map_append, List.eraseDups_append]
      congr 1
      by_cases hname : f.1.toLower ∈ set.map key
      · rw [if_pos (List.mem_eraseDups.mpr hname), List.map_singleton, List.removeAll,
          List.filter_cons_of_neg (by simpa [key] using hname)]
        rfl
      · rw [if_neg fun h => hname (List.mem_eraseDups.mp h), List.map_singleton, List.removeAll,
          List.filter_cons_of_pos (by simpa [key] using hname)]
        rfl

theorem namedIn_built (name : String) (set : List (String × String)) :
    namedIn name (built set) = merged (namedIn name set) := by
  -- the last call is split off, since it decides about the value
  induction set using List.reverseRecOn with
  | nil => rfl
  | append_singleton set f ih =>
      rw [built_concat, namedIn_setField, ih]
      have happend : namedIn name (set ++ [f]) = namedIn name set ++ namedIn name [f] :=
        List.filter_append _ _
      split
      · rename_i hname
        rw [happend, namedIn_cons_of_same hname]
        refine (merged_concat fun g hg => ?_).symm
        exact (same_iff.mp (List.mem_filter.mp hg).2).trans hname.symm
      · rename_i hname
        rw [happend, namedIn_cons_of_other hname]
        exact congrArg merged (List.append_nil _).symm

theorem distinct_iff : Distinct fields ↔ (fields.map key).Nodup := by
  unfold Distinct List.Nodup
  rw [List.pairwise_map]
  simp only [same_eq_false, key]

theorem distinct_built (set : List (String × String)) : Distinct (built set) := by
  -- on the keys alone a call either changes nothing or adds a new one at the end
  rw [distinct_iff]
  induction set using List.reverseRecOn with
  | nil => exact List.nodup_nil
  | append_singleton set f ih =>
      rw [built_concat, keys_setField]
      by_cases hname : f.1.toLower ∈ (built set).map key
      · rw [if_pos hname, List.append_nil]
        exact ih
      · rw [if_neg hname, ← List.concat_eq_append]
        exact List.Nodup.concat hname ih

theorem collects_built (set : List (String × String)) : Collects set (built set) where
  distinct := distinct_built set
  order := keys_built set
  entry name := namedIn_built name set

/-! ## Responses -/

/-- A call by which a response is made up. -/
inductive Edit
  | setHeader (name value : String)
  | setTextBody (text : String)
  | setBody (body : Bytes)
  deriving DecidableEq, Repr

namespace Edit

def apply (r : Response) : Edit → Response
  | .setHeader name value => r.setHeader name value
  | .setTextBody text => r.setTextBody text
  | .setBody body => r.setBody body

/-- The header field that is set. A text says of itself that it is one. -/
def field? : Edit → Option (String × String)
  | .setHeader name value => some (name, value)
  | .setTextBody _ => some ("Content-Type", "text/plain; charset=utf-8")
  | .setBody _ => none

/-- The body that is given. -/
def body? : Edit → Option Bytes
  | .setHeader _ _ => none
  | .setTextBody text => some (utf8 text)
  | .setBody body => some body

theorem fields_apply (r : Response) (e : Edit) :
    (e.apply r).fields = e.field?.elim r.fields fun f => setField f.1 f.2 r.fields := by
  cases e <;> rfl

theorem body_apply (r : Response) (e : Edit) : (e.apply r).body = e.body?.getD r.body := by
  cases e <;> rfl

end Edit

/-- A response of this status, made up by these calls. -/
def edited (status : UInt16) (edits : List Edit) : Response :=
  edits.foldl Edit.apply (ofStatus status)

theorem edited_concat (status : UInt16) (edits : List Edit) (e : Edit) :
    edited status (edits ++ [e]) = e.apply (edited status edits) :=
  List.foldl_append

theorem fields_eq_built (status : UInt16) (edits : List Edit) :
    (edited status edits).fields = built (edits.filterMap Edit.field?) := by
  induction edits using List.reverseRecOn with
  | nil => rfl
  | append_singleton edits e ih =>
      rw [edited_concat, Edit.fields_apply, ih, List.filterMap_append]
      cases hfield : e.field? with
      | none => simp [hfield]
      | some f => simp [hfield, built_concat]

theorem body_edited (status : UInt16) (edits : List Edit) :
    (edited status edits).body = (edits.filterMap Edit.body?).getLast?.getD [] := by
  induction edits using List.reverseRecOn with
  | nil => rfl
  | append_singleton edits e ih =>
      rw [edited_concat, Edit.body_apply, ih, List.filterMap_append]
      cases hbody : e.body? with
      | none => simp [hbody]
      | some body => simp [hbody]

/-- Whatever calls make up a response: its fields collect all that was set, a text body's
`Content-Type` with the others; the next call leaves every field as it is that it does not set; and
the body is the one that was given last. -/
theorem fields_edited (status : UInt16) (edits : List Edit) :
    let r := edited status edits
    Collects (edits.filterMap Edit.field?) r.fields ∧
    (∀ e : Edit, match e.field? with
      | none => (e.apply r).fields = r.fields
      | some (name, value) => Sets name value r.fields (e.apply r).fields) ∧
    r.body = (edits.filterMap Edit.body?).getLast?.getD [] := by
  intro r
  have hcollects : Collects (edits.filterMap Edit.field?) r.fields := by
    rw [show r.fields = _ from fields_eq_built status edits]
    exact collects_built _
  refine ⟨hcollects, fun e => ?_, body_edited status edits⟩
  rw [Edit.fields_apply]
  cases e.field? with
  | none => rfl
  | some f => exact sets_setField hcollects.distinct

end TcpReactor.Http.Response
