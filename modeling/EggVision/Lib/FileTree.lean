import Mathlib.Data.List.Infix
import Mathlib.Logic.Function.Basic

/-!
# Trees of files

A tree says what is at each path below its root. Its calls fail where those of a file system do:
there is no file without a directory around it, a new directory takes no name that is in use, and
`rename` moves all that is below a name and replaces a file. A `rename` onto a directory is refused,
also when that directory is empty.

A call that fails leaves the tree as it was. Calls may fail for reasons that are not in the tree;
that is up to the program that makes them.

## Main definitions

* `Rooted` — whatever is there is in a directory
* `Node`, `Tree`
* `Tree.mkdir`, `Tree.write`, `Tree.remove`, `Tree.rename`
* `Tree.Same` — nothing at or below a path differs

## Main results

* `mkdir_eq_some`, `write_eq_some`, `remove_eq_some` — one path changes
* `rename_eq_some`, `moved_below`, `moved_apart`, `moved_left` — one subtree moves
* `Tree.none_of_prefix` — there is nothing below what is not there
-/

namespace FileTree

variable {N C : Type}

inductive Node (C : Type)
  | directory
  | file (content : C)
deriving DecidableEq, Repr

def Node.isDirectory : Option (Node C) → Bool
  | some .directory => true
  | some (.file _) | none => false

theorem Node.isDirectory_iff {node : Option (Node C)} :
    Node.isDirectory node = true ↔ node = some .directory := by
  rcases node with _ | _ | content <;> simp [isDirectory]

theorem Node.ne_directory {node : Option (Node C)} (h : Node.isDirectory node = false) :
    node ≠ some .directory := by
  rintro rfl
  cases h

/-- Whatever is there is in a directory. -/
def Rooted (node : List N → Option (Node C)) : Prop :=
  ∀ path name, node (path ++ [name]) ≠ none → node path = some .directory

/-! ### What keeps a tree rooted -/

section

variable {node : List N → Option (Node C)} {path path' : List N} {name name' : N}

/-- There is nothing below what is not a directory. -/
theorem Rooted.none_below (hrooted : Rooted node) (h : node path ≠ some .directory)
    (rest : List N) (hrest : rest ≠ []) : node (path ++ rest) = none := by
  induction rest using List.reverseRecOn with
  | nil => exact absurd rfl hrest
  | append_singleton rest name ih =>
    by_contra hsome
    rw [← List.append_assoc] at hsome
    have hparent := hrooted _ _ hsome
    by_cases hnil : rest = []
    · rw [hnil, List.append_nil] at hparent
      exact h hparent
    · rw [ih hnil] at hparent
      cases hparent

variable [DecidableEq N]

theorem Rooted.mkdir (hrooted : Rooted node) (name : N) (hdir : node path = some .directory) :
    Rooted (Function.update node (path ++ [name]) (some .directory)) := by
  intro path' name' hsome
  by_cases heq : path' = path ++ [name]
  · rw [heq, Function.update_self]
  · rw [Function.update_of_ne heq]
    by_cases hnew : path' ++ [name'] = path ++ [name]
    · rw [(List.append_inj' hnew rfl).1, hdir]
    · rw [Function.update_of_ne hnew] at hsome
      exact hrooted _ _ hsome

/-- What is not a directory may be replaced. -/
theorem Rooted.update (hrooted : Rooted node) (new : Option (Node C))
    (hdir : new ≠ none → node path = some .directory)
    (hplain : node (path ++ [name]) ≠ some .directory) :
    Rooted (Function.update node (path ++ [name]) new) := by
  intro path' name' hsome
  have hother : ∀ at', node at' = some .directory →
      Function.update node (path ++ [name]) new at' = some .directory := by
    intro at' hat'
    rw [Function.update_of_ne, hat']
    rintro rfl
    exact hplain hat'
  by_cases hnew : path' ++ [name'] = path ++ [name]
  · rw [hnew, Function.update_self] at hsome
    rw [(List.append_inj' hnew rfl).1]
    exact hother _ (hdir hsome)
  · rw [Function.update_of_ne hnew] at hsome
    exact hother _ (hrooted _ _ hsome)

/-- What is at each path once `source` is at `target`. -/
def moved (node : List N → Option (Node C)) (source target path : List N) : Option (Node C) :=
  if target <+: path then node (source ++ path.drop target.length)
  else if source <+: path then none
  else node path

theorem Rooted.moved {source : List N} (hrooted : Rooted node) (name' : N)
    (hdir : node path' = some .directory) (houtside : ¬ source <+: path') :
    Rooted (moved node source (path' ++ [name'])) := by
  intro at' last hsome
  unfold FileTree.moved at hsome ⊢
  by_cases hin : path' ++ [name'] <+: at'
  · -- Both the node and its directory have been moved.
    obtain ⟨rest, rfl⟩ := hin
    rw [if_pos ⟨rest ++ [last], by simp⟩, List.append_assoc (path' ++ [name']),
      List.drop_left, ← List.append_assoc] at hsome
    rw [if_pos ⟨rest, rfl⟩, List.drop_left]
    exact hrooted _ last hsome
  · rw [if_neg hin]
    by_cases hlast : path' ++ [name'] <+: at' ++ [last]
    · -- The node is what has been moved.
      rcases List.prefix_concat_iff.mp hlast with heq | hpre
      · obtain ⟨rfl, -⟩ := List.append_inj' heq rfl
        rw [if_neg houtside, hdir]
      · exact absurd hpre hin
    · rw [if_neg hlast] at hsome
      by_cases hfrom : source <+: at' ++ [last]
      · exact absurd (if_pos hfrom) hsome
      · rw [if_neg hfrom] at hsome
        rw [if_neg fun hpre => hfrom (hpre.trans (List.prefix_append _ _))]
        exact hrooted _ _ hsome

theorem moved_below (node : List N → Option (Node C)) (source target rest : List N) :
    moved node source target (target ++ rest) = node (source ++ rest) := by
  rw [moved, if_pos (List.prefix_append _ _), List.drop_left]

theorem moved_apart {source target : List N} (hsource : ¬ source <+: path)
    (htarget : ¬ target <+: path) : moved node source target path = node path := by
  rw [moved, if_neg htarget, if_neg hsource]

theorem moved_left {source target : List N} (hsource : source <+: path)
    (htarget : ¬ target <+: path) : moved node source target path = none := by
  rw [moved, if_neg htarget, if_pos hsource]

end

/-! ### Trees -/

structure Tree (N C : Type) where
  node : List N → Option (Node C)
  rooted : Rooted node

namespace Tree

/-- A root with nothing in it. -/
def empty : Tree N C where
  node path := if path.isEmpty then some .directory else none
  rooted path name h := by simp at h

theorem none_of_prefix {t : Tree N C} {path path' : List N} (h : t.node path = none)
    (hbelow : path <+: path') : t.node path' = none := by
  obtain ⟨rest, rfl⟩ := hbelow
  by_cases hrest : rest = []
  · rw [hrest, List.append_nil, h]
  · exact t.rooted.none_below (by simp [h]) rest hrest

/-- The trees have the same at `path` and below it. -/
def Same (t t' : Tree N C) (path : List N) : Prop :=
  ∀ rest, t'.node (path ++ rest) = t.node (path ++ rest)

theorem Same.refl (t : Tree N C) (path : List N) : Same t t path := fun _ => rfl

theorem Same.trans {t t' t'' : Tree N C} {path : List N} (h : Same t t' path)
    (h' : Same t' t'' path) : Same t t'' path := fun rest => (h' rest).trans (h rest)

theorem Same.node {t t' : Tree N C} {path : List N} (h : Same t t' path) :
    t'.node path = t.node path := by simpa using h []

variable [DecidableEq N]

/-- A new directory. -/
def mkdir (t : Tree N C) (path : List N) (name : N) : Option (Tree N C) :=
  if h : Node.isDirectory (t.node path) = true ∧ (t.node (path ++ [name])).isNone = true then
    some ⟨_, t.rooted.mkdir name (Node.isDirectory_iff.mp h.1)⟩
  else none

/-- A file, new or written over. -/
def write (t : Tree N C) (path : List N) (name : N) (content : C) : Option (Tree N C) :=
  if h : Node.isDirectory (t.node path) = true ∧
      Node.isDirectory (t.node (path ++ [name])) = false then
    some ⟨_, t.rooted.update (some (.file content)) (fun _ => Node.isDirectory_iff.mp h.1)
      (Node.ne_directory h.2)⟩
  else none

/-- A file goes away. -/
def remove (t : Tree N C) (path : List N) (name : N) : Option (Tree N C) :=
  if h : (t.node (path ++ [name])).isSome = true ∧
      Node.isDirectory (t.node (path ++ [name])) = false then
    some ⟨_, t.rooted.update none (absurd rfl) (Node.ne_directory h.2)⟩
  else none

/-- What is at a name, and below it, gets another name. -/
def rename (t : Tree N C) (path : List N) (name : N) (path' : List N) (name' : N) :
    Option (Tree N C) :=
  if h : (t.node (path ++ [name])).isSome = true ∧ Node.isDirectory (t.node path') = true ∧
      ¬ path ++ [name] <+: path' ∧ Node.isDirectory (t.node (path' ++ [name'])) = false ∧
      (Node.isDirectory (t.node (path ++ [name])) = true →
        (t.node (path' ++ [name'])).isNone = true) then
    some ⟨_, t.rooted.moved name' (Node.isDirectory_iff.mp h.2.1) h.2.2.1⟩
  else none

variable {t t' : Tree N C} {path path' : List N} {name name' : N}

theorem mkdir_eq_some (h : t.mkdir path name = some t') :
    t.node path = some .directory ∧ t.node (path ++ [name]) = none ∧
      t'.node = Function.update t.node (path ++ [name]) (some .directory) := by
  unfold mkdir at h
  split at h
  · obtain rfl := Option.some.inj h
    exact ⟨Node.isDirectory_iff.mp ‹_ ∧ _›.1, Option.isNone_iff_eq_none.mp ‹_ ∧ _›.2, rfl⟩
  · cases h

theorem write_eq_some {content : C} (h : t.write path name content = some t') :
    t.node path = some .directory ∧
      t'.node = Function.update t.node (path ++ [name]) (some (.file content)) := by
  unfold write at h
  split at h
  · obtain rfl := Option.some.inj h
    exact ⟨Node.isDirectory_iff.mp ‹_ ∧ _›.1, rfl⟩
  · cases h

theorem remove_eq_some (h : t.remove path name = some t') :
    t'.node = Function.update t.node (path ++ [name]) none := by
  unfold remove at h
  split at h
  · obtain rfl := Option.some.inj h
    rfl
  · cases h

theorem rename_eq_some (h : t.rename path name path' name' = some t') :
    t.node (path ++ [name]) ≠ none ∧
      t'.node = moved t.node (path ++ [name]) (path' ++ [name']) := by
  unfold rename at h
  split at h
  · obtain rfl := Option.some.inj h
    exact ⟨Option.isSome_iff_ne_none.mp ‹_ ∧ _›.1, rfl⟩
  · cases h

/-! ### What a call leaves alone -/

/-- Nothing differs but at `path` and below it. -/
def Outside (t t' : Tree N C) (path : List N) : Prop :=
  ∀ at', ¬ path <+: at' → t'.node at' = t.node at'

omit [DecidableEq N] in
theorem Outside.refl (t : Tree N C) (path : List N) : Outside t t path := fun _ _ => rfl

omit [DecidableEq N] in
theorem Outside.trans {t'' : Tree N C} (h : Outside t t' path) (h' : Outside t' t'' path) :
    Outside t t'' path := fun at' hat' => (h' at' hat').trans (h at' hat')

omit [DecidableEq N] in
/-- What is in one of two directories apart is not in the other. -/
theorem Outside.same (h : Outside t t' path) (hapart : ∀ rest, ¬ path <+: path' ++ rest) :
    Same t t' path' := fun rest => h _ (hapart rest)

theorem write_outside {content : C} (h : t.write path name content = some t') :
    Outside t t' (path ++ [name]) := by
  intro at' hat'
  rw [(write_eq_some h).2, Function.update_of_ne]
  rintro rfl
  exact hat' (List.prefix_refl _)

omit [DecidableEq N] in
theorem Outside.of_append {rest : List N} (h : Outside t t' (path ++ rest)) : Outside t t' path :=
  fun at' hat' => h at' fun hpre => hat' ((List.prefix_append _ _).trans hpre)

theorem rename_within_outside (h : t.rename path name path name' = some t') :
    Outside t t' path := by
  intro at' hat'
  rw [(rename_eq_some h).2, moved_apart] <;>
    exact fun hpre => hat' ((List.prefix_append _ _).trans hpre)

/-! ### What is in a directory -/

/-- The names in a directory, with what is there. -/
def entries (t : Tree N C) (path : List N) (name : N) : Option (Node C) := t.node (path ++ [name])

theorem write_entries {content : C} (h : t.write path name content = some t') :
    t'.node path = t.node path ∧
      t'.entries path = Function.update (t.entries path) name (some (.file content)) := by
  obtain ⟨-, hnode⟩ := write_eq_some h
  refine ⟨by rw [hnode, Function.update_of_ne (by simp)], funext fun other => ?_⟩
  unfold entries
  rw [hnode]
  by_cases hother : other = name
  · rw [hother, Function.update_self, Function.update_self]
  · rw [Function.update_of_ne (by simpa using hother), Function.update_of_ne hother]

theorem rename_within_entries (h : t.rename path name path name' = some t') :
    t'.node path = t.node path ∧
      t'.entries path =
        Function.update (Function.update (t.entries path) name none) name'
          (t.entries path name) := by
  obtain ⟨-, hnode⟩ := rename_eq_some h
  have hshort : ∀ last, ¬ path ++ [last] <+: path := fun last hpre => by
    have := hpre.length_le
    rw [List.length_append, List.length_singleton] at this
    omega
  have hlevel : ∀ last other, path ++ [last] <+: path ++ [other] → other = last := by
    intro last other hpre
    obtain ⟨rest, hrest⟩ := (List.prefix_append_right_inj path).mp hpre
    exact (List.cons.inj hrest).1.symm
  refine ⟨by rw [hnode, moved_apart (hshort _) (hshort _)], funext fun other => ?_⟩
  unfold entries
  rw [hnode]
  by_cases htarget : other = name'
  · rw [htarget, Function.update_self]
    simpa using moved_below t.node (path ++ [name]) (path ++ [name']) []
  · rw [Function.update_of_ne htarget]
    by_cases hsource : other = name
    · rw [hsource, Function.update_self, moved_left (List.prefix_refl _)]
      exact fun hpre => htarget (hsource.trans (hlevel _ _ hpre))
    · rw [Function.update_of_ne hsource, moved_apart]
      · exact fun hpre => hsource (hlevel _ _ hpre)
      · exact fun hpre => htarget (hlevel _ _ hpre)

/-- A new directory is empty. -/
theorem mkdir_entries (h : t.mkdir path name = some t') :
    t'.node (path ++ [name]) = some .directory ∧
      ∀ other, t'.entries (path ++ [name]) other = none := by
  obtain ⟨-, hnone, hnode⟩ := mkdir_eq_some h
  refine ⟨by rw [hnode, Function.update_self], fun other => ?_⟩
  rw [entries, hnode, Function.update_of_ne (by simp)]
  exact none_of_prefix hnone (List.prefix_append _ _)

end Tree

end FileTree
