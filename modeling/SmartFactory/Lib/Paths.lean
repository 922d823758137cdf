import Mathlib.Data.List.Infix

/-!
# `SmartFactory.Lib.Paths`: paths and the directories that they lead to

A directory is the list of names on the way to it from the root. A path is a list of components,
and `resolve` follows it from a directory: a name is entered, `..` leaves the last directory, and
at the root it stays there.

`normal` reduces a path, without a directory, to the number of directories that it climbs out of
and the names that it enters then. `resolve_eq` is that this is all that matters of a path, and
`prefix_resolve_iff` says when a path ends below the directory where it began: it climbs
out of nothing, or it comes back by the same names.

The last section reads paths from text. Links are not followed: `..` undoes the name before it.
-/

set_option autoImplicit false

namespace SmartFactory.Paths

variable {α : Type*}

/-- A component of a path. -/
inductive Component (α : Type*) where
  | here
  | up
  | name (a : α)
  deriving DecidableEq

/-- The directory that a component leads to. -/
def Component.enter (dir : List α) : Component α → List α
  | .here => dir
  | .up => dir.dropLast
  | .name a => dir ++ [a]

/-- Follow a path. -/
def resolve (dir : List α) (path : List (Component α)) : List α := path.foldl Component.enter dir

theorem resolve_append (dir : List α) (p q : List (Component α)) :
    resolve dir (p ++ q) = resolve (resolve dir p) q :=
  List.foldl_append

/-! ### The normal form of a path -/

/-- A path that first climbs and then enters names. -/
structure Normal (α : Type*) where
  climb : Nat
  names : List α
  deriving DecidableEq

/-- One more component: `..` takes back the last name, or climbs when there is none. -/
def Normal.enter (n : Normal α) : Component α → Normal α
  | .here => n
  | .up => if n.names.isEmpty then ⟨n.climb + 1, []⟩ else ⟨n.climb, n.names.dropLast⟩
  | .name a => ⟨n.climb, n.names ++ [a]⟩

/-- The normal form of a path. -/
def normal (path : List (Component α)) : Normal α := path.foldl Normal.enter ⟨0, []⟩

/-- Where a normal form leads. -/
def Normal.follow (n : Normal α) (dir : List α) : List α :=
  dir.take (dir.length - n.climb) ++ n.names

theorem Normal.follow_enter (n : Normal α) (c : Component α) (dir : List α) :
    (n.enter c).follow dir = c.enter (n.follow dir) := by
  cases c with
  | here => rfl
  | name a => simp [Normal.enter, Normal.follow, Component.enter]
  | up =>
      obtain ⟨climb, names⟩ := n
      cases names with
      | nil =>
          simp only [Normal.enter, Normal.follow, Component.enter, List.isEmpty_nil, if_true,
            List.append_nil]
          rw [List.dropLast_eq_take, List.length_take, List.take_take]
          congr 1
          omega
      | cons a names =>
          simp [Normal.enter, Normal.follow, Component.enter, List.dropLast_append_of_ne_nil]

/-- **The normal form** leads where the path leads. -/
theorem resolve_eq (dir : List α) (path : List (Component α)) :
    resolve dir path = (normal path).follow dir := by
  -- From any normal form, by induction over the rest of the path.
  have hfrom : ∀ n : Normal α, resolve (n.follow dir) path = (path.foldl Normal.enter n).follow dir
      := by
    induction path with
    | nil => exact fun n => rfl
    | cons c path ih =>
        intro n
        show resolve (c.enter (n.follow dir)) path = _
        rw [← n.follow_enter, ih]
        rfl
  have hstart : (⟨0, []⟩ : Normal α).follow dir = dir := by simp [Normal.follow]
  rw [normal, ← hfrom, hstart]

/-- A path ends below a directory exactly when the names that it enters begin with those of the
directory that lie above of where it has climbed to. -/
theorem prefix_resolve_iff_of_take {dir target : List α} {path : List (Component α)}
    (h : target.take (dir.length - (normal path).climb)
      <+: dir.take (dir.length - (normal path).climb)) :
    target <+: resolve dir path ↔
      target.drop (dir.length - (normal path).climb) <+: (normal path).names := by
  rw [resolve_eq, Normal.follow]
  have hsplit := List.take_append_drop (dir.length - (normal path).climb) target
  rcases Nat.le_total (dir.length - (normal path).climb) target.length with hle | hle
  · -- The part that is not climbed out of is the same in both.
    have hsame : target.take (dir.length - (normal path).climb)
        = dir.take (dir.length - (normal path).climb) :=
      h.eq_of_length (by rw [List.length_take, List.length_take]; omega)
    conv_lhs => rw [← hsplit, hsame]
    exact List.prefix_append_right_inj _
  · have hin : target <+: dir.take (dir.length - (normal path).climb) := by
      rwa [List.take_of_length_le hle] at h
    rw [List.drop_of_length_le hle]
    exact iff_of_true (hin.trans (List.prefix_append _ _)) (List.nil_prefix)

/-- A path ends below the directory where it began exactly when the names that it enters begin
with those that it climbed out of. -/
theorem prefix_resolve_iff (dir : List α) (path : List (Component α)) :
    dir <+: resolve dir path ↔
      dir.drop (dir.length - (normal path).climb) <+: (normal path).names :=
  prefix_resolve_iff_of_take List.prefix_rfl

/-- The same when the path begins in the directory that holds the other one. -/
theorem prefix_enter_resolve_iff (dir : List α) (c : Component α) (path : List (Component α)) :
    c.enter dir <+: resolve dir path ↔
      (c.enter dir).drop (dir.length - (normal path).climb) <+: (normal path).names := by
  apply prefix_resolve_iff_of_take
  cases c with
  | here => exact List.prefix_rfl
  | up => exact (List.dropLast_prefix dir).take _
  | name a =>
      show (dir ++ [a]).take _ <+: _
      rw [List.take_append_of_le_length (by omega)]

/-! ### Paths in text -/

/-- A component in text. -/
def Component.ofText : List Char → Component (List Char)
  | [] => .here
  | ['.'] => .here
  | ['.', '.'] => .up
  | s => .name s

/-- The components between the slashes. -/
def components (text : List Char) : List (Component (List Char)) :=
  (text.splitOn '/').map Component.ofText

/-- Where a text leads: from the root when it begins with a slash, and from the current directory
otherwise. -/
def resolveText (cwd : List (List Char)) (text : List Char) : List (List Char) :=
  resolve (if text.head? = some '/' then [] else cwd) (components text)

theorem components_append_slash (a b : List Char) :
    components (a ++ '/' :: b) = components a ++ components b := by
  rw [components, List.splitOn_append_cons_self, List.map_append]
  rfl

/-- What follows a slash is followed from where the text before it leads. -/
theorem resolveText_append_slash (cwd : List (List Char)) {a : List Char} (b : List Char)
    (ha : a ≠ []) :
    resolveText cwd (a ++ '/' :: b) = resolve (resolveText cwd a) (components b) := by
  rw [resolveText, resolveText, components_append_slash, resolve_append,
    List.head?_append_of_ne_nil a ha]

/-- A name behind the last slash is entered from where the text up to the slash leads. -/
theorem resolveText_append_segment (cwd : List (List Char)) {holder seg : List Char}
    (hholder : ∀ h : holder ≠ [], holder.getLast h = '/') (hseg : '/' ∉ seg) :
    resolveText cwd (holder ++ seg) = (Component.ofText seg).enter (resolveText cwd holder) := by
  have hone : components seg = [Component.ofText seg] := by
    rw [components, List.splitOn_eq_singleton hseg]
    rfl
  have hempty : components ([] : List Char) = [Component.here] := rfl
  rcases List.eq_nil_or_concat holder with rfl | ⟨p, c, rfl⟩
  · rw [List.nil_append, resolveText, resolveText, hone, hempty, if_neg, if_neg]
    · rfl
    · exact nofun
    · exact fun h => hseg (List.mem_of_mem_head? h)
  · have hc : c = '/' := by simpa using hholder (by simp)
    rw [hc, List.concat_eq_append, List.append_assoc, resolveText, resolveText,
      List.singleton_append, components_append_slash, components_append_slash, hone, hempty,
      resolve_append, resolve_append]
    -- Both texts are absolute, or both are relative.
    have hhead : (p ++ '/' :: seg).head? = (p ++ ['/']).head? := by cases p <;> rfl
    rw [hhead]
    rfl

end SmartFactory.Paths
