import BoundSql.Json.Descriptor
import Mathlib.Data.List.Nodup
import Mathlib.Data.List.Perm.Basic

/-!
# Records in JSON

An object writes the fields of a record if it has one member for each field that is written, under
one of the field's names, in any order. As long as no name belongs to two fields, such an object is
read as the fields that it writes (`IsRecord.fields?_eq`).
-/

namespace BoundSql.Json

/-! ### Depth -/

mutual

/-- How many arrays and objects are nested in the tree. -/
def Tree.depth : Tree → Nat
  | .array items => depths items + 1
  | .object members => memberDepths members + 1
  | .null | .bool _ | .number _ | .string _ => 0

/-- The greatest depth of the trees. -/
def depths : List Tree → Nat
  | [] => 0
  | t :: ts => max t.depth (depths ts)

def memberDepths : List (StringToken × Tree) → Nat
  | [] => 0
  | (_, t) :: ms => max t.depth (memberDepths ms)

end

theorem depth_le_depths {t : Tree} {ts : List Tree} (h : t ∈ ts) : t.depth ≤ depths ts := by
  induction ts with
  | nil => cases h
  | cons x ts ih =>
    rw [depths]
    rcases List.mem_cons.mp h with rfl | h
    · exact Nat.le_max_left _ _
    · exact Nat.le_trans (ih h) (Nat.le_max_right _ _)

theorem memberDepths_eq (ms : List (StringToken × Tree)) :
    memberDepths ms = depths (ms.map Prod.snd) := by
  induction ms with
  | nil => rfl
  | cons m ms ih => rw [memberDepths, ih, List.map_cons, depths]

theorem depth_le_memberDepths {m : StringToken × Tree} {ms : List (StringToken × Tree)}
    (h : m ∈ ms) : m.2.depth ≤ memberDepths ms := by
  rw [memberDepths_eq]
  exact depth_le_depths (List.mem_map_of_mem h)

/-! ### Members in order -/

/-- In the order of the fields, each value that is written is a member under one of the names of its
field. -/
inductive Members : List (List String) → List (Option Tree) → List (StringToken × Tree) → Prop
  | nil : Members [] [] []
  | leftOut {names : List String} {rest : List (List String)} {values : List (Option Tree)}
      {ms : List (StringToken × Tree)} :
      Members rest values ms → Members (names :: rest) (none :: values) ms
  | written {names : List String} {rest : List (List String)} {values : List (Option Tree)}
      {ms : List (StringToken × Tree)} {name : String} {t : Tree} :
      name ∈ names → Members rest values ms →
      Members (names :: rest) (some t :: values) ((some name, t) :: ms)

/-- The object has the members of a record, in any order. -/
def IsRecord (names : List (List String)) (values : List (Option Tree)) (t : Tree) : Prop :=
  ∃ ms members, Members names values ms ∧ members.Perm ms ∧ t = .object members

namespace Members

variable {names : List (List String)} {values : List (Option Tree)}
  {ms : List (StringToken × Tree)}

theorem exists_name_of_mem (h : Members names values ms) {m : StringToken × Tree} (hm : m ∈ ms) :
    ∃ name ∈ names.flatten, m.1 = some name := by
  induction h with
  | nil => cases hm
  | leftOut _ ih =>
    obtain ⟨name, hname, heq⟩ := ih hm
    exact ⟨name, List.mem_append_right _ hname, heq⟩
  | written hname _ ih =>
    rcases List.mem_cons.mp hm with rfl | hm
    · exact ⟨_, List.mem_append_left _ hname, rfl⟩
    · obtain ⟨name, hname, heq⟩ := ih hm
      exact ⟨name, List.mem_append_right _ hname, heq⟩

/-- The members have exactly the values that are written. -/
theorem exists_mem_iff (h : Members names values ms) (t : Tree) :
    (∃ key, (key, t) ∈ ms) ↔ some t ∈ values := by
  induction h with
  | nil => simp
  | leftOut _ ih => simp [ih]
  | written _ _ ih => simp [exists_or, ih]

end Members

/-- Whatever the fields are, some object writes them. -/
theorem exists_members {names : List (List String)} {values : List (Option Tree)}
    (hnames : ∀ ns ∈ names, ns ≠ []) (hlength : names.length = values.length) :
    ∃ ms, Members names values ms := by
  induction names generalizing values with
  | nil =>
    rw [List.length_eq_zero_iff.mp hlength.symm]
    exact ⟨[], .nil⟩
  | cons ns names ih =>
    cases values with
    | nil => cases hlength
    | cons value values =>
      obtain ⟨hns, hnames⟩ := List.forall_mem_cons.mp hnames
      obtain ⟨ms, hms⟩ := ih hnames (Nat.succ.inj hlength)
      obtain ⟨name, hname⟩ := List.exists_mem_of_ne_nil ns hns
      cases value with
      | none => exact ⟨ms, .leftOut hms⟩
      | some t => exact ⟨_, .written hname hms⟩

theorem exists_isRecord (names : List (List String)) (values : List (Option Tree))
    (hnames : ∀ ns ∈ names, ns ≠ []) (hlength : names.length = values.length) :
    ∃ t, IsRecord names values t := by
  obtain ⟨ms, hms⟩ := exists_members hnames hlength
  exact ⟨.object ms, ms, ms, hms, .refl ms, rfl⟩

/-! ### Reading members -/

/-- The order of the members does not matter. -/
theorem member?_perm {names : List String} {members ms : List (StringToken × Tree)}
    (h : members.Perm ms) : member? names members = member? names ms := by
  rw [member?, member?]
  have hfilter := h.filter fun m => m.1.any names.contains
  revert hfilter
  generalize members.filter _ = as, ms.filter _ = bs
  intro hfilter
  match bs, hfilter with
  | [], hfilter => rw [hfilter.eq_nil]
  | [m], hfilter => rw [List.perm_singleton.mp hfilter]
  | _ :: _ :: _, hfilter =>
    have hlength := hfilter.length_eq
    match as, hlength with
    | _ :: _ :: _, _ => rfl

/-- Every member has a name, and it is none of these. -/
def Avoids (names : List String) (ms : List (StringToken × Tree)) : Prop :=
  ∀ m ∈ ms, ∃ name ∉ names, m.1 = some name

namespace Avoids

variable {names others : List String} {ms rest : List (StringToken × Tree)}

theorem mono (h : Avoids names ms) (hsubset : others ⊆ names) : Avoids others ms := by
  intro m hm
  obtain ⟨name, hname, heq⟩ := h m hm
  exact ⟨name, fun h => hname (hsubset h), heq⟩

theorem append (h : Avoids names ms) (hrest : Avoids names rest) : Avoids names (ms ++ rest) :=
  List.forall_mem_append.mpr ⟨h, hrest⟩

/-- Such members are passed over. -/
theorem filter_eq_nil (h : Avoids names ms) :
    (ms.filter fun m => m.1.any names.contains) = [] := by
  rw [List.filter_eq_nil_iff]
  intro m hm
  obtain ⟨name, hname, heq⟩ := h m hm
  simp [heq, hname]

end Avoids

theorem Members.avoids {names : List (List String)} {values : List (Option Tree)}
    {ms : List (StringToken × Tree)} (h : Members names values ms) {others : List String}
    (hdisjoint : ∀ a ∈ others, ∀ b ∈ names.flatten, a ≠ b) : Avoids others ms := by
  intro m hm
  obtain ⟨name, hname, heq⟩ := h.exists_name_of_mem hm
  exact ⟨name, fun h => hdisjoint name h name hname rfl, heq⟩

/-- Field by field, the values that are written are found, also behind other members. -/
theorem Members.mapM_member? {names : List (List String)} {values : List (Option Tree)}
    {ms : List (StringToken × Tree)} (h : Members names values ms) (hnodup : names.flatten.Nodup)
    {before : List (StringToken × Tree)} (hbefore : Avoids names.flatten before) :
    names.mapM (fun ns => member? ns (before ++ ms)) = some values := by
  induction h generalizing before with
  | nil => rfl
  | @leftOut ns names values ms hms ih =>
    rw [List.flatten_cons] at hnodup hbefore
    obtain ⟨-, hnodup, hdisjoint⟩ := List.nodup_append.mp hnodup
    have hnone := (hbefore.mono (List.subset_append_left _ _)).append (hms.avoids hdisjoint)
    have hrest := ih hnodup (hbefore.mono (List.subset_append_right _ _))
    rw [List.mapM_cons, member?, hnone.filter_eq_nil, hrest]
    rfl
  | @written ns names values ms name t hname hms ih =>
    rw [List.flatten_cons] at hnodup hbefore
    obtain ⟨-, hnodup, hdisjoint⟩ := List.nodup_append.mp hnodup
    have hfirst : member? ns (before ++ (some name, t) :: ms) = some (some t) := by
      rw [member?, List.filter_append, (hbefore.mono (List.subset_append_left _ _)).filter_eq_nil,
        List.filter_cons_of_pos (by simpa using hname), (hms.avoids hdisjoint).filter_eq_nil]
      rfl
    -- for the other fields this member is one more of those before
    have hthis : Avoids names.flatten [(some name, t)] := by
      rintro _ (_ | ⟨_, ⟨⟩⟩)
      exact ⟨name, fun h => hdisjoint name hname name h rfl, rfl⟩
    have hrest := ih hnodup ((hbefore.mono (List.subset_append_right _ _)).append hthis)
    rw [List.append_assoc, List.singleton_append] at hrest
    rw [List.mapM_cons, hfirst, hrest]
    rfl

theorem membersReadable_eq_all (levels : Nat) (ms : List (StringToken × Tree)) :
    membersReadable levels ms = ms.all fun m => m.1.isSome && m.2.isReadable levels := by
  induction ms with
  | nil => rfl
  | cons m ms ih => rw [membersReadable, ih, List.all_cons]

namespace IsRecord

variable {names : List (List String)} {values : List (Option Tree)} {t : Tree}

theorem fields?_eq (h : IsRecord names values t) (hnodup : names.flatten.Nodup) :
    fields? names t = some values := by
  obtain ⟨ms, members, hms, hperm, rfl⟩ := h
  have hkeys : members.all (fun m => m.1.isSome) = true := by
    rw [List.all_eq_true]
    intro m hm
    obtain ⟨name, -, heq⟩ := hms.exists_name_of_mem (hperm.mem_iff.mp hm)
    rw [heq]
    rfl
  have hmembers : (fun ns => member? ns members) = fun ns => member? ns ms :=
    funext fun _ => member?_perm hperm
  rw [fields?, if_pos hkeys, hmembers]
  exact hms.mapM_member? hnodup (List.forall_mem_nil _)

theorem exists_object (h : IsRecord names values t) : ∃ members, t = .object members := by
  obtain ⟨ms, members, -, -, rfl⟩ := h
  exact ⟨members, rfl⟩

/-- What is written in a record is less deep than the record. -/
theorem depth_lt (h : IsRecord names values t) {value : Tree} (hvalue : some value ∈ values) :
    value.depth < t.depth := by
  obtain ⟨ms, members, hms, hperm, rfl⟩ := h
  obtain ⟨key, hkey⟩ := (hms.exists_mem_iff value).mpr hvalue
  exact Nat.lt_succ_of_le (depth_le_memberDepths (hperm.mem_iff.mpr hkey))

/-- A record can be read in full if what is written in it can. -/
theorem isReadable (h : IsRecord names values t) {levels : Nat} (hlevels : 0 < levels)
    (hvalues : ∀ value, some value ∈ values → value.isReadable (levels - 1) = true) :
    t.isReadable levels = true := by
  obtain ⟨ms, members, hms, hperm, rfl⟩ := h
  rw [Tree.isReadable, membersReadable_eq_all, decide_eq_true hlevels, Bool.true_and,
    List.all_eq_true]
  intro m hm
  have hm := hperm.mem_iff.mp hm
  obtain ⟨name, -, heq⟩ := hms.exists_name_of_mem hm
  rw [heq, hvalues m.2 ((hms.exists_mem_iff m.2).mp ⟨m.1, hm⟩)]
  rfl

end IsRecord

end BoundSql.Json
