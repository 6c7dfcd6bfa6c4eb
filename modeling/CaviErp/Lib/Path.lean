import CaviErp.Lib.Text

/-!
# Paths

`pathlib.PurePosixPath`: a root and parts. Parts that are empty or a single dot are dropped.
-/

namespace Py

structure Path where
  root : Text
  parts : List Text
deriving DecidableEq

namespace Path

def slash : Point := .char '/'

/-- Two slashes are a root of their own; more of them are one. -/
def rootOf (t : Text) : Text :=
  match (t.takeWhile (· = slash)).length with
  | 0 => []
  | 2 => [slash, slash]
  | _ => [slash]

def ofText (t : Text) : Path :=
  ⟨rootOf t, (t.splitOn slash).filter fun part => part ≠ [] && part ≠ [.char '.']⟩

/-- `p / t`: a text with a root takes the place of the path. -/
def join (p : Path) (t : Text) : Path :=
  let q := ofText t
  if q.root = [] then ⟨p.root, p.parts ++ q.parts⟩ else q

/-- `str(p)`. -/
def text (p : Path) : Text :=
  let t := p.root ++ List.intercalate [slash] p.parts
  if t = [] then [.char '.'] else t

/-- A directory as `str` writes it: nothing is dropped of it. -/
def Plain (dir : Text) : Prop :=
  (ofText dir).parts ≠ [] ∧ (ofText dir).root ++ List.intercalate [slash] (ofText dir).parts = dir

instance (dir : Text) : Decidable (Plain dir) := inferInstanceAs (Decidable (_ ∧ _))

theorem intercalate_concat {α : Type} (sep x : List α) {xs : List (List α)} (h : xs ≠ []) :
    List.intercalate sep (xs ++ [x]) = List.intercalate sep xs ++ sep ++ x := by
  induction xs with
  | nil => exact absurd rfl h
  | cons y ys ih =>
    cases ys with
    | nil => simp
    | cons z zs =>
      have hrest := ih (List.cons_ne_nil z zs)
      rw [List.cons_append, List.intercalate_cons_of_ne_nil (by simp), hrest,
        List.intercalate_cons_of_ne_nil (List.cons_ne_nil z zs)]
      simp only [List.append_assoc]

/-- A name without slashes is one part. -/
theorem ofText_name {name : Text} (hslash : slash ∉ name) (hempty : name ≠ []) (hdot : name ≠ [.char '.']) :
    ofText name = ⟨[], [name]⟩ := by
  have hroot : rootOf name = [] := by
    unfold rootOf
    cases name with
    | nil => rfl
    | cons p t =>
      have hp : p ≠ slash := fun h => hslash (h ▸ List.mem_cons_self)
      rw [List.takeWhile_cons_of_neg (by simpa using hp)]
      rfl
  unfold ofText
  rw [hroot, List.splitOn_eq_singleton hslash]
  simp [hempty, hdot]

/-- A file of a directory. -/
theorem text_join {dir name : Text} (hdir : Plain dir) (hslash : slash ∉ name) (hempty : name ≠ [])
    (hdot : name ≠ [.char '.']) : ((ofText dir).join name).text = dir ++ slash :: name := by
  obtain ⟨hparts, htext⟩ := hdir
  unfold join
  rw [ofText_name hslash hempty hdot]
  dsimp only
  rw [if_pos rfl]
  unfold text
  dsimp only
  rw [intercalate_concat _ _ hparts, ← List.append_assoc, ← List.append_assoc, htext, List.append_assoc]
  exact if_neg (by simp)

end Path

example : ((Path.ofText "schemas").join "./a//b").text = Text.ofString "schemas/a/b" := by decide +kernel

example : ((Path.ofText "schemas").join "///a").text = Text.ofString "/a" := by decide +kernel

end Py
