import BoundSql.Fragment.Lemmas
import BoundSql.Value.Quoting

/-!
# Literal and parameterized text share a skeleton

Whatever the options are, a fragment is written as the same texts with something in between for each
bound scalar: the scalar as a literal, or the placeholder with its number. The texts and the scalars
are the *skeleton* of the fragment. It can be read off the way in which the fragment was put
together, before any options are known:

    skeleton_fragment     :  t.fragment.skeleton = t.skeleton
    renderParts_eq_render :  rendering a fragment is filling in its skeleton
-/

namespace BoundSql

/-! ### Skeletons -/

/-- Texts with a scalar between each two. -/
inductive Skeleton where
  | last (text : String)
  | slot (text : String) (value : Scalar) (rest : Skeleton)

namespace Skeleton

def texts : Skeleton → List String
  | .last text => [text]
  | .slot text _ rest => text :: rest.texts

def scalars : Skeleton → List Scalar
  | .last _ => []
  | .slot _ value rest => value :: rest.scalars

/-- Write the texts, and for the scalars between them what `place` says of the number and the scalar.
The numbers go on behind `bound`. -/
def fill (place : Nat → Scalar → String) : Nat → Skeleton → String
  | _, .last text => text
  | bound, .slot text value rest =>
    text ++ place (bound + 1) value ++ rest.fill place (bound + 1)

/-- The text and the parameters, with `bound` scalars to the left. -/
def render (config : Config) (bound : Nat) (s : Skeleton) : Rendered :=
  match config.render with
  | .literal => ⟨s.fill (fun _ value => value.literal config.escapeLiterals) bound, []⟩
  | .parameterized => ⟨s.fill (fun k _ => config.placeholder.placeholder k) bound, s.scalars⟩

/-- One skeleton behind another. The texts that meet become one. -/
def append : Skeleton → Skeleton → Skeleton
  | .last s, .last t => .last (s ++ t)
  | .last s, .slot t value rest => .slot (s ++ t) value rest
  | .slot t value rest, k => .slot t value (rest.append k)

instance : Append Skeleton := ⟨append⟩

/-- Skeletons with a text between each two. -/
def join (separator : String) : List Skeleton → Skeleton
  | [] => .last ""
  | [s] => s
  | s :: t :: ss => s ++ .last separator ++ join separator (t :: ss)

theorem length_texts (s : Skeleton) : s.texts.length = s.scalars.length + 1 := by
  induction s with
  | last text => rfl
  | slot text value rest ih => simp [texts, scalars, ih]

@[simp] theorem last_append_last (s t : String) : last s ++ last t = last (s ++ t) := rfl

@[simp] theorem last_append_slot (s t : String) (value : Scalar) (rest : Skeleton) :
    last s ++ slot t value rest = slot (s ++ t) value rest := rfl

@[simp] theorem slot_append (t : String) (value : Scalar) (rest k : Skeleton) :
    slot t value rest ++ k = slot t value (rest ++ k) := rfl

@[simp] theorem empty_append (s : Skeleton) : last "" ++ s = s := by
  cases s <;> simp

@[simp] theorem append_empty (s : Skeleton) : s ++ last "" = s := by
  induction s with
  | last text => simp
  | slot text value rest ih => simp [ih]

theorem append_assoc (s t u : Skeleton) : s ++ t ++ u = s ++ (t ++ u) := by
  induction s with
  | last text => cases t <;> cases u <;> simp [String.append_assoc]
  | slot text value rest ih => simp [ih]

@[simp] theorem scalars_append (s t : Skeleton) : (s ++ t).scalars = s.scalars ++ t.scalars := by
  induction s with
  | last text => cases t <;> rfl
  | slot text value rest ih => simp [scalars, ih]

theorem scalars_join (separator : String) (ss : List Skeleton) :
    (join separator ss).scalars = ss.flatMap scalars := by
  fun_induction join separator ss with
  | case1 => rfl
  | case2 s => simp
  | case3 s t ss ih => simp [ih, scalars]

/-- What stands behind a skeleton is numbered behind its scalars. -/
theorem fill_append (place : Nat → Scalar → String) (bound : Nat) (s t : Skeleton) :
    (s ++ t).fill place bound =
      s.fill place bound ++ t.fill place (bound + s.scalars.length) := by
  induction s generalizing bound with
  | last text => cases t <;> simp [fill, scalars, String.append_assoc]
  | slot text value rest ih =>
    have hbound : bound + 1 + rest.scalars.length = bound + (rest.scalars.length + 1) := by omega
    simp [fill, scalars, ih, hbound, String.append_assoc]

/-- In both modes, what stands behind a skeleton is written behind it, with its parameters behind
those of the skeleton. -/
theorem render_append (config : Config) (bound : Nat) (s t : Skeleton) :
    (s ++ t).render config bound =
      let first := s.render config bound
      let second := t.render config (bound + s.scalars.length)
      ⟨first.sql ++ second.sql, first.params ++ second.params⟩ := by
  unfold render
  cases config.render with
  | literal => simp [fill_append]
  | parameterized => simp [fill_append]

end Skeleton

/-! ### The skeleton of a fragment -/

def Part.skeleton : Part → Skeleton
  | .raw text => .last text
  | .bind value => .slot "" value (.last "")
  | .placeholder => .last "?"

def Skeleton.ofParts : List Part → Skeleton
  | [] => .last ""
  | p :: ps => p.skeleton ++ ofParts ps

/-- Gluing parts does not change what is written. -/
theorem Skeleton.ofParts_glue (ps qs : List Part) :
    ofParts (Fragment.glue ps qs) = ofParts ps ++ ofParts qs := by
  fun_induction Fragment.glue ps qs with
  | case1 qs => simp [ofParts]
  | case2 s t qs => simp [ofParts, Part.skeleton, ← append_assoc]
  | case3 p ps qs hp ih => simp [ofParts, ih, append_assoc]

namespace Fragment

def skeleton (a : Fragment) : Skeleton := .ofParts a.parts

@[simp] theorem skeleton_empty : empty.skeleton = .last "" := rfl

@[simp] theorem skeleton_raw (text : String) : (raw text).skeleton = .last text := by
  unfold raw
  split
  · next h => rw [String.isEmpty_iff.mp h, skeleton_empty]
  · simp [skeleton, Skeleton.ofParts, Part.skeleton]

@[simp] theorem skeleton_bind (value : Scalar) : (bind value).skeleton = .slot "" value (.last "") :=
  rfl

@[simp] theorem skeleton_placeholder : placeholder.skeleton = .last "?" := rfl

@[simp] theorem skeleton_append (a b : Fragment) : (a ++ b).skeleton = a.skeleton ++ b.skeleton :=
  Skeleton.ofParts_glue a.parts b.parts

theorem skeleton_parenthesized (a : Fragment) :
    a.parenthesized.skeleton = .last "(" ++ a.skeleton ++ .last ")" := by
  simp [parenthesized]

theorem skeleton_join (separator : String) (as : List Fragment) :
    (join separator as).skeleton = Skeleton.join separator (as.map skeleton) := by
  fun_induction join separator as with
  | case1 => rfl
  | case2 a => rfl
  | case3 a b as ih => simp [ih, Skeleton.join]

theorem scalars_skeleton (a : Fragment) : a.skeleton.scalars = a.binds := by
  obtain ⟨ps⟩ := a
  simp only [skeleton, binds]
  induction ps with
  | nil => rfl
  | cons p ps ih => cases p <;> simp [Skeleton.ofParts, Part.skeleton, Skeleton.scalars, ih]

/-- Rendering parts is filling in their skeleton. -/
theorem renderParts_eq_render (config : Config) (bound : Nat) (ps : List Part) :
    renderParts config bound ps = (Skeleton.ofParts ps).render config bound := by
  induction ps generalizing bound with
  | nil =>
    unfold renderParts Skeleton.render
    cases config.render <;> rfl
  | cons p ps ih =>
    rw [Skeleton.ofParts, Skeleton.render_append]
    cases p with
    | raw text | placeholder =>
      rw [renderParts, ih]
      unfold Skeleton.render
      cases config.render <;> rfl
    | bind value =>
      rw [renderParts, ih]
      unfold Skeleton.render
      cases config.render <;> simp [Part.skeleton, Skeleton.fill, Skeleton.scalars]

end Fragment

/-! ### Constructions -/

/-- How a fragment is put together. -/
inductive Construction where
  | new (text : String)
  | push (a : Construction) (text : String)
  | pushBind (a : Construction) (value : Scalar)
  | pushPlaceholder (a : Construction)
  | append (a b : Construction)
  | appendParenthesized (a b : Construction)
  | join (separator : String) (as : List Construction)
  /-- The statement as a value, quoted or not. -/
  | embedded (quote : Bool) (sub : Construction)

namespace Construction

mutual

/-- The fragment that is put together. -/
def fragment : Construction → Fragment
  | .new text => .raw text
  | .push a text => a.fragment ++ .raw text
  | .pushBind a value => a.fragment ++ .bind value
  | .pushPlaceholder a => a.fragment ++ .placeholder
  | .append a b => a.fragment ++ b.fragment
  | .appendParenthesized a b => a.fragment ++ b.fragment.parenthesized
  | .join separator as => .join separator (fragments as)
  | .embedded quote sub => (Value.statement sub.fragment).joined quote

def fragments : List Construction → List Fragment
  | [] => []
  | a :: as => a.fragment :: fragments as

end

mutual

/-- The texts and scalars in the order in which they are put together. -/
def skeleton : Construction → Skeleton
  | .new text => .last text
  | .push a text => a.skeleton ++ .last text
  | .pushBind a value => a.skeleton ++ .slot "" value (.last "")
  | .pushPlaceholder a => a.skeleton ++ .last "?"
  | .append a b => a.skeleton ++ b.skeleton
  | .appendParenthesized a b => a.skeleton ++ (.last "(" ++ b.skeleton ++ .last ")")
  | .join separator as => .join separator (skeletons as)
  | .embedded _ sub => .last "(" ++ sub.skeleton ++ .last ")"

def skeletons : List Construction → List Skeleton
  | [] => []
  | a :: as => a.skeleton :: skeletons as

end

mutual

/-- The scalars that are bound, from left to right. -/
def scalars : Construction → List Scalar
  | .new _ => []
  | .push a _ | .pushPlaceholder a | .embedded _ a => a.scalars
  | .pushBind a value => a.scalars ++ [value]
  | .append a b | .appendParenthesized a b => a.scalars ++ b.scalars
  | .join _ as => listScalars as

def listScalars : List Construction → List Scalar
  | [] => []
  | a :: as => a.scalars ++ listScalars as

end

mutual

theorem skeleton_fragment : ∀ t : Construction, t.fragment.skeleton = t.skeleton
  | .new text => Fragment.skeleton_raw text
  | .push a text => by simp [fragment, skeleton, skeleton_fragment a]
  | .pushBind a value => by simp [fragment, skeleton, skeleton_fragment a]
  | .pushPlaceholder a => by simp [fragment, skeleton, skeleton_fragment a]
  | .append a b => by simp [fragment, skeleton, skeleton_fragment a, skeleton_fragment b]
  | .appendParenthesized a b => by
    simp [fragment, skeleton, Fragment.skeleton_parenthesized, skeleton_fragment a,
      skeleton_fragment b]
  | .join separator as => by
    simp [fragment, skeleton, Fragment.skeleton_join, map_skeleton_fragments as]
  | .embedded quote sub => by
    simp [fragment, skeleton, Value.joined, Fragment.skeleton_parenthesized, skeleton_fragment sub]

theorem map_skeleton_fragments :
    ∀ ts : List Construction, (fragments ts).map Fragment.skeleton = skeletons ts
  | [] => rfl
  | t :: ts => by
    simp [fragments, skeletons, skeleton_fragment t, map_skeleton_fragments ts]

end

mutual

theorem scalars_skeleton : ∀ t : Construction, t.skeleton.scalars = t.scalars
  | .new text => rfl
  | .push a text => by simp [skeleton, scalars, Skeleton.scalars, scalars_skeleton a]
  | .pushBind a value => by simp [skeleton, scalars, Skeleton.scalars, scalars_skeleton a]
  | .pushPlaceholder a => by simp [skeleton, scalars, Skeleton.scalars, scalars_skeleton a]
  | .append a b => by simp [skeleton, scalars, scalars_skeleton a, scalars_skeleton b]
  | .appendParenthesized a b => by
    simp [skeleton, scalars, Skeleton.scalars, scalars_skeleton a, scalars_skeleton b]
  | .join separator as => by
    simp [skeleton, scalars, Skeleton.scalars_join, flatMap_scalars_skeletons as]
  | .embedded quote sub => by simp [skeleton, scalars, Skeleton.scalars, scalars_skeleton sub]

theorem flatMap_scalars_skeletons :
    ∀ ts : List Construction, (skeletons ts).flatMap Skeleton.scalars = listScalars ts
  | [] => rfl
  | t :: ts => by
    simp [skeletons, listScalars, scalars_skeleton t, flatMap_scalars_skeletons ts]

end

/-- Whatever the options are, a fragment is written by filling in one and the same skeleton, which
binds the scalars in the order in which they were put in: between its texts stand the literals of the
scalars, or `?` for each of them, or `$k` for the `k`-th one. A fragment that is appended is written
as it stands, with its numbers behind those of the first one and its parameters behind theirs. -/
theorem written_from_one_skeleton (t : Construction) :
    t.skeleton.scalars = t.scalars ∧
      t.skeleton.texts.length = t.scalars.length + 1 ∧
      t.fragment.bindCount = t.scalars.length ∧
      (∀ config, t.fragment.render config = t.skeleton.render config 0) ∧
      (∀ quote style escape, t.fragment.render ⟨quote, .literal, style, escape⟩ =
        ⟨t.skeleton.fill (fun _ value => value.literal escape) 0, []⟩) ∧
      (∀ quote escape, t.fragment.render ⟨quote, .parameterized, .question, escape⟩ =
        ⟨t.skeleton.fill (fun _ _ => "?") 0, t.scalars⟩) ∧
      (∀ quote escape, t.fragment.render ⟨quote, .parameterized, .numbered, escape⟩ =
        ⟨t.skeleton.fill (fun k _ => "$" ++ Nat.repr k) 0, t.scalars⟩) ∧
      (∀ config bound, Fragment.renderParts config bound t.fragment.parts =
        t.skeleton.render config bound) ∧
      ∀ u config bound, Fragment.renderParts config bound (t.append u).fragment.parts =
        let first := Fragment.renderParts config bound t.fragment.parts
        let second := Fragment.renderParts config (bound + t.fragment.bindCount) u.fragment.parts
        ⟨first.sql ++ second.sql, first.params ++ second.params⟩ := by
  have hrender : ∀ config bound, Fragment.renderParts config bound t.fragment.parts =
      t.skeleton.render config bound := by
    intro config bound
    rw [Fragment.renderParts_eq_render, ← skeleton_fragment, Fragment.skeleton]
  have hstart (config : Config) : t.fragment.render config = t.skeleton.render config 0 :=
    hrender config 0
  refine ⟨scalars_skeleton t, ?_, ?_, hstart, ?_, ?_, ?_, hrender, ?_⟩
  · rw [Skeleton.length_texts, scalars_skeleton]
  · rw [Fragment.bindCount, ← Fragment.scalars_skeleton, skeleton_fragment, scalars_skeleton]
  · intro quote style escape
    rw [hstart]
    rfl
  · intro quote escape
    rw [hstart, ← scalars_skeleton]
    rfl
  · intro quote escape
    rw [hstart, ← scalars_skeleton]
    rfl
  · intro u config bound
    exact Fragment.renderParts_glue config bound t.fragment.parts u.fragment.parts

/-- The placeholder of the caller takes no number. -/
example :
    let inner := (new "SELECT id FROM t WHERE x = ").pushBind (.int 2)
    let outer := (((new "y = ").pushPlaceholder.push " AND z = ").pushBind (.int 1)).append
      ((new " AND id IN ").append (.embedded true inner))
    outer.fragment.render (.parameterized .numbered) =
        ⟨"y = ? AND z = $1 AND id IN (SELECT id FROM t WHERE x = $2)", [.int 1, .int 2]⟩ ∧
      outer.fragment.render {} =
        ⟨"y = ? AND z = 1 AND id IN (SELECT id FROM t WHERE x = 2)", []⟩ := by
  decide

end Construction

end BoundSql
