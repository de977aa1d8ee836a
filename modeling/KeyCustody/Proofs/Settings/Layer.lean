import KeyCustody.Proofs.Association
import KeyCustody.Settings.Layer
import Mathlib.Data.List.Induction
import Mathlib.Tactic.Common

/-!
# What layers of configuration hold

A layer on top of another decides name by name: what it holds goes before what is below, and two
levels of one name are joined. The layer of an environment is made of its variables, later ones on
top. If none of them names a section as a whole, the section is in the layer exactly if a variable
leads into it, and what it has for a name is what the last variable for that name says.

## Main definitions

* `ConfigValue.text?` — the text that a value is
* `ConfigValue.IsKeyed` — no name stands twice in a level
* `Variable.LeadsInto`, `Variable.last?` — the variables for a section, and the last one for a
  setting
* `Variable.IsDirect` — no variable says anything about a setting but its value

## Main results

* `ConfigValue.lookup_overFields` — one layer on top of another
* `ConfigValue.lookup_ofEnvironment` — the layer of an environment
-/

namespace KeyCustody

/-! ## Variables of a section -/

namespace Variable

variable {part name : String} {environment : List (String × String)}

/-- Some variable names the section or something in it. -/
def LeadsInto (part : String) (environment : List (String × String)) : Prop :=
  ∃ entry ∈ environment, ∃ path, path? entry.1 = some (part :: path)

instance (part : String) (environment : List (String × String)) :
    Decidable (LeadsInto part environment) :=
  decidable_of_iff (∃ entry ∈ environment, (path? entry.1).bind List.head? = some part) <| by
    refine exists_congr fun entry => and_congr_right fun _ => ?_
    rcases path? entry.1 with _ | (_ | ⟨p, path⟩) <;> simp

/-- What the last variable with a path says. -/
def last? (path : List String) (environment : List (String × String)) : Option String :=
  (environment.reverse.find? fun entry => path? entry.1 == some path).map Prod.snd

/-- No variable names the section as a whole, or anything beneath the setting. -/
def IsDirect (part name : String) (environment : List (String × String)) : Prop :=
  ∀ entry ∈ environment, path? entry.1 ≠ some [part] ∧
    ∀ next path, path? entry.1 ≠ some (part :: name :: next :: path)

instance (part name : String) (environment : List (String × String)) :
    Decidable (IsDirect part name environment) :=
  decidable_of_iff (∀ entry ∈ environment, path? entry.1 ≠ some [part] ∧
      ∀ beneath ∈ (path? entry.1).map (List.drop 2), beneath ≠ [] →
        (path? entry.1).map (List.take 2) ≠ some [part, name]) <| by
    refine forall₂_congr fun entry _ => and_congr_right fun _ => ?_
    rcases path? entry.1 with _ | (_ | ⟨p, _ | ⟨n, _ | ⟨next, path⟩⟩⟩) <;> simp
    exact ⟨fun h _ _ hp hn => absurd hn (h hp), fun h hp hn => h next path hp hn rfl rfl⟩

theorem last?_append (path : List String) (environment : List (String × String))
    (entry : String × String) : last? path (environment ++ [entry]) =
      if path? entry.1 = some path then some entry.2 else last? path environment := by
  rw [last?, List.reverse_append, List.reverse_singleton, List.singleton_append,
    List.find?_cons]
  by_cases h : path? entry.1 = some path
  · simp [h]
  · rw [if_neg h, beq_eq_false_iff_ne.mpr h]
    rfl

theorem leadsInto_append {entry : String × String} : LeadsInto part (environment ++ [entry]) ↔
    LeadsInto part environment ∨ ∃ path, path? entry.1 = some (part :: path) := by
  simp only [LeadsInto, List.mem_append, List.mem_singleton, or_and_right, exists_or,
    exists_eq_left]

theorem IsDirect.of_append {entry : String × String}
    (h : IsDirect part name (environment ++ [entry])) : IsDirect part name environment :=
  fun other hmem => h other (List.mem_append_left _ hmem)

theorem IsDirect.path_ne {entry : String × String}
    (h : IsDirect part name (environment ++ [entry])) : path? entry.1 ≠ some [part] ∧
      ∀ next path, path? entry.1 ≠ some (part :: name :: next :: path) :=
  h entry (List.mem_append_right _ (List.mem_singleton_self _))

/-- A setting that is said is in its section. -/
theorem leadsInto_of_last? {v : String} (h : last? [part, name] environment = some v) :
    LeadsInto part environment := by
  obtain ⟨entry, hfind, -⟩ := Option.map_eq_some_iff.mp h
  exact ⟨entry, List.mem_reverse.mp (List.mem_of_find?_eq_some hfind), [name],
    by simpa using List.find?_some hfind⟩

end Variable

namespace ConfigValue

variable {part name other : String} {v : ConfigValue} {fields lower upper : Fields}

/-! ## Texts -/

/-- The text that a value is. -/
def text? : ConfigValue → Option String
  | .text s => some s
  | _ => none

theorem text?_eq_some_iff {s : String} : v.text? = some s ↔ v = .text s := by
  cases v <;> simp [text?]

/-- The named values of a level; nothing else has any. -/
def fieldsOf : Option ConfigValue → Fields
  | some (.level fields) => fields
  | _ => []

theorem fieldsOf_level (fields : Fields) : fieldsOf (some (.level fields)) = fields := rfl

/-- A level on top of anything is a level. -/
theorem overlay_level (below : Option ConfigValue) (upper : Fields) :
    overlay below (.level upper) = .level (overFields (fieldsOf below) upper) := by
  rcases below with _ | (_ | _ | _ | _ | _ | _) <;> simp [overlay, fieldsOf]

/-- What is below a value makes no difference to the text that it is. -/
theorem text?_overlay (below : Option ConfigValue) (v : ConfigValue) :
    (overlay below v).text? = v.text? := by
  cases v with
  | level upper =>
    rw [overlay_level]
    rfl
  | text | flag | number | moment | list => rw [overlay]

/-! ## Single names -/

/-- No name stands twice. -/
def IsKeyed (fields : Fields) : Prop := (fields.map Prod.fst).Nodup

theorem isKeyed_singleton (name : String) (v : ConfigValue) : IsKeyed [(name, v)] :=
  List.pairwise_singleton _ _

theorem lookup_setField (name other : String) (v : ConfigValue) (fields : Fields) :
    (setField name v fields).lookup other =
      if other = name then some v else fields.lookup other :=
  Association.lookup_set (setField name v) rfl (fun _ _ _ => rfl) fields other

theorem IsKeyed.setField (h : IsKeyed fields) : IsKeyed (setField name v fields) :=
  Association.nodup_set (ConfigValue.setField name v) rfl (fun _ _ _ => rfl) h

/-! ## Layers -/

theorem IsKeyed.overFields (h : IsKeyed lower) (upper : Fields) :
    IsKeyed (overFields lower upper) := by
  induction upper generalizing lower with
  | nil => rwa [ConfigValue.overFields]
  | cons field rest ih =>
    rw [ConfigValue.overFields]
    exact ih h.setField

/-- What the upper layer holds goes before what is below. -/
theorem lookup_overFields (h : IsKeyed upper) (lower : Fields) (name : String) :
    (overFields lower upper).lookup name =
      ((upper.lookup name).map (overlay (lower.lookup name))).or (lower.lookup name) := by
  induction upper generalizing lower with
  | nil =>
    rw [overFields]
    rfl
  | cons field rest ih =>
    obtain ⟨first, v⟩ := field
    obtain ⟨hfirst, hrest⟩ := List.nodup_cons.mp h
    -- The first field is put into the lower layer, and the rest has nothing for its name.
    rw [overFields, ih hrest, lookup_setField, Association.lookup_cons]
    split_ifs with heq
    · have hnone : rest.lookup name = none :=
        List.lookup_eq_none_iff.mpr fun entry hmem => bne_iff_ne.mpr fun hname =>
          hfirst (List.mem_map.mpr ⟨entry, hmem, hname.symm.trans heq⟩)
      rw [hnone, heq]
      rfl
    · rfl

/-! ## Environments -/

theorem ofEnvironment_append (environment : List (String × String)) (entry : String × String) :
    ofEnvironment (environment ++ [entry]) =
      overFields (ofEnvironment environment) (ofVariable entry.1 entry.2) := by
  rw [ofEnvironment, List.foldl_append]
  rfl

theorem isKeyed_ofVariable (name written : String) : IsKeyed (ofVariable name written) := by
  rw [ofVariable]
  split
  · exact isKeyed_singleton _ _
  · exact List.nodup_nil

theorem isKeyed_ofEnvironment (environment : List (String × String)) :
    IsKeyed (ofEnvironment environment) := by
  induction environment using List.reverseRecOn with
  | nil => exact List.nodup_nil
  | append_singleton environment entry ih =>
    rw [ofEnvironment_append]
    exact ih.overFields _

/-- A variable for something in a section puts it on top of what the section has. -/
theorem lookup_ofEnvironment_of_path {entry : String × String} {first : String}
    {path : List String} (h : Variable.path? entry.1 = some (part :: first :: path))
    (environment : List (String × String)) :
    (ofEnvironment (environment ++ [entry])).lookup part =
      some (.level (overFields (fieldsOf ((ofEnvironment environment).lookup part))
        [(first, ofPath path (Variable.value entry.2))])) := by
  have hlayer : (ofVariable entry.1 entry.2).lookup part =
      some (.level [(first, ofPath path (Variable.value entry.2))]) := by
    rw [ofVariable, h]
    exact List.lookup_cons_self
  rw [ofEnvironment_append, lookup_overFields (isKeyed_ofVariable _ _), hlayer,
    Option.map_some, overlay_level, Option.some_or]

/-- A variable for another section makes no difference. -/
theorem lookup_ofEnvironment_of_ne {entry : String × String}
    (h : ∀ path, Variable.path? entry.1 ≠ some (part :: path))
    (environment : List (String × String)) :
    (ofEnvironment (environment ++ [entry])).lookup part =
      (ofEnvironment environment).lookup part := by
  have hlayer : (ofVariable entry.1 entry.2).lookup part = none := by
    rw [ofVariable]
    split
    · next first path hpath =>
      have hne : part ≠ first := fun heq => h path (heq ▸ hpath)
      rw [Association.lookup_cons, if_neg hne, List.lookup_nil]
    · rfl
  rw [ofEnvironment_append, lookup_overFields (isKeyed_ofVariable _ _), hlayer,
    Option.map_none, Option.none_or]

theorem lookup_ofEnvironment_eq_none {environment : List (String × String)}
    (h : ¬ Variable.LeadsInto part environment) :
    (ofEnvironment environment).lookup part = none := by
  induction environment using List.reverseRecOn with
  | nil => rfl
  | append_singleton environment entry ih =>
    obtain ⟨hbefore, hentry⟩ := not_or.mp (Variable.leadsInto_append.not.mp h)
    rw [lookup_ofEnvironment_of_ne (not_exists.mp hentry), ih hbefore]

/-- What the layer of an environment has in a section that no variable names as a whole: the values
of the last variables for its settings. -/
theorem lookup_ofEnvironment {environment : List (String × String)}
    (h : Variable.IsDirect part name environment) :
    (Variable.LeadsInto part environment →
      ∃ upper, (ofEnvironment environment).lookup part = some (.level upper)) ∧
    IsKeyed (fieldsOf ((ofEnvironment environment).lookup part)) ∧
    ((fieldsOf ((ofEnvironment environment).lookup part)).lookup name).map text? =
      (Variable.last? [part, name] environment).map fun v => (Variable.value v).text? := by
  -- Later variables are on top, so they are taken off the end.
  induction environment using List.reverseRecOn with
  | nil => exact ⟨fun ⟨_, hmem, _⟩ => absurd hmem List.not_mem_nil, List.nodup_nil, rfl⟩
  | append_singleton environment entry ih =>
    obtain ⟨hlevel, hkeyed, htext⟩ := ih h.of_append
    obtain ⟨hwhole, hbeneath⟩ := h.path_ne
    by_cases hentry : ∃ path, Variable.path? entry.1 = some (part :: path)
    · obtain ⟨_ | ⟨first, path⟩, hpath⟩ := hentry
      · exact absurd hpath hwhole
      rw [lookup_ofEnvironment_of_path hpath]
      refine ⟨fun _ => ⟨_, rfl⟩, hkeyed.overFields _, ?_⟩
      rw [fieldsOf_level, lookup_overFields (isKeyed_singleton _ _), Association.lookup_cons,
        Variable.last?_append, hpath]
      by_cases hname : name = first
      · -- Nothing stands beneath the setting, so the variable gives its value.
        subst hname
        cases path with
        | nil => simp [ofPath, text?_overlay]
        | cons next path => exact absurd hpath (hbeneath next path)
      · have hne : some (part :: first :: path) ≠ some [part, name] := by
          rintro ⟨⟩
          exact hname rfl
        rw [if_neg hname, if_neg hne]
        simpa using htext
    · rw [lookup_ofEnvironment_of_ne (not_exists.mp hentry), Variable.leadsInto_append,
        or_iff_left hentry, Variable.last?_append, if_neg fun hpath => hentry ⟨_, hpath⟩]
      exact ⟨hlevel, hkeyed, htext⟩

end ConfigValue

end KeyCustody
