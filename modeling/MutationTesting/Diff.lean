import MutationTesting.Text.Lines

/-!
# Line differences

A `Script` says how one list becomes another, in runs that are kept, deleted or
inserted.  `Script.between` finds one that deletes and inserts little, by parting the
lists where a path of kept elements from the front meets one from the back; `compact`
then moves insertions and deletions together.  `lineDiff` prints the script between the
lines of two texts.
-/

namespace MutationTesting

namespace Diff

/-- A run of elements of a script. -/
inductive Hunk (α : Type) where
  | keep (xs : List α)
  | delete (xs : List α)
  | insert (xs : List α)
  deriving DecidableEq, Repr

/-- The elements of the old list that a run covers. -/
def Hunk.old {α : Type} : Hunk α → List α
  | keep xs => xs
  | delete xs => xs
  | insert _ => []

/-- The elements of the new list that a run covers. -/
def Hunk.new {α : Type} : Hunk α → List α
  | keep xs => xs
  | delete _ => []
  | insert xs => xs

/-- What is kept, deleted and inserted, in order. -/
abbrev Script (α : Type) := List (Hunk α)

/-- The list that a script starts from. -/
def Script.old {α : Type} (s : Script α) : List α := s.flatMap Hunk.old

/-- The list that a script leads to. -/
def Script.new {α : Type} (s : Script α) : List α := s.flatMap Hunk.new

variable {α : Type} [DecidableEq α]

/-- The longest common beginning of two lists, and what follows it in each. -/
def commonStart : List α → List α → List α × List α × List α
  | x :: xs, y :: ys =>
    if x = y then
      let (common, restX, restY) := commonStart xs ys
      (x :: common, restX, restY)
    else ([], x :: xs, y :: ys)
  | xs, ys => ([], xs, ys)

theorem commonStart_eq (xs ys : List α) :
  xs = (commonStart xs ys).1 ++ (commonStart xs ys).2.1
    ∧ ys = (commonStart xs ys).1 ++ (commonStart xs ys).2.2
  := by
  fun_induction commonStart xs ys with
  | case1 x xs y ys h ih => grind
  | case2 x xs y ys h => simp
  | case3 xs ys h => simp

/-- What precedes the longest common end of two lists in each, and that end. -/
def commonEnd (xs ys : List α) : List α × List α × List α :=
  let (common, restX, restY) := commonStart xs.reverse ys.reverse
  (restX.reverse, restY.reverse, common.reverse)

theorem commonEnd_eq (xs ys : List α) :
  xs = (commonEnd xs ys).1 ++ (commonEnd xs ys).2.2
    ∧ ys = (commonEnd xs ys).2.1 ++ (commonEnd xs ys).2.2
  := by
  obtain ⟨hx, hy⟩ := commonStart_eq xs.reverse ys.reverse
  constructor
  · simpa [commonEnd] using congrArg List.reverse hx
  · simpa [commonEnd] using congrArg List.reverse hy

/-! ### The middle of a path -/

/-- For each diagonal, how far the paths of one direction have come.  Diagonal `k` holds
the places `(x, y)` with `x - y = k`. -/
structure Reach where
  furthest : Array Nat
  /-- The index of diagonal 0. -/
  centre : Nat

namespace Reach

def start (size : Nat) : Reach := ⟨Array.replicate (2 * size + 1) 0, size⟩

def get (r : Reach) (k : Int) : Nat := r.furthest.getD (k + r.centre).toNat 0

def set (r : Reach) (k : Int) (x : Nat) : Reach :=
  { r with furthest := r.furthest.setIfInBounds (k + r.centre).toNat x }

/-- Where a path of `d` changes starts on diagonal `k`: one change away from the further
of its two neighbours. -/
def enter (r : Reach) (d k : Int) : Nat :=
  if k = -d || (k ≠ d && r.get (k - 1) < r.get (k + 1)) then r.get (k + 1)
  else r.get (k - 1) + 1

end Reach

/-- How many equal elements follow `(x, y)` in both lists. -/
def matching (old new : Array α) (x y : Nat) : Nat :=
  if h : x < old.size ∧ y < new.size then
    if old[x] = new[y] then matching old new (x + 1) (y + 1) + 1 else 0
  else 0
termination_by old.size - x

/-- The diagonals that paths of `d` changes end on, from the highest down. -/
def diagonals (d : Nat) : List Int :=
  (List.range (d + 1)).map fun (i : Nat) => (d : Int) - 2 * i

/-- The place where a path of few changes from the front of both lists meets one from
their back, if one is found within the number of changes that suffices.  Paths from the
back are those from the front of the reversed lists. -/
def middle? (old new : Array α) : Option (Nat × Nat) := Id.run do
  let n := old.size
  let m := new.size
  let delta : Int := n - m
  let odd := delta % 2 ≠ 0
  let oldBack := old.reverse
  let newBack := new.reverse
  let bound := (n + m + 1) / 2 + 1
  let mut front := Reach.start (bound + 1)
  let mut back := Reach.start (bound + 1)
  for d in List.range bound do
    for k in diagonals d do
      let x := front.enter d k
      let y := ((x : Int) - k).toNat
      let reached := x + matching old new x y
      front := front.set k reached
      if odd && (k - delta).natAbs + 1 ≤ d && n ≤ reached + back.get (delta - k) then
        return some (x, y)
    for k in diagonals d do
      let x := back.enter d k
      let y := ((x : Int) - k).toNat
      let run := matching oldBack newBack x y
      back := back.set k (x + run)
      if !odd && (k - delta).natAbs ≤ d && n ≤ x + run + front.get (delta - k) then
        return some (n - (x + run), m - (y + run))
  return none

/-! ### Scripts -/

/-- A run of deletions, unless it is empty. -/
def deletion : List α → Script α
  | [] => []
  | xs => [.delete xs]

/-- A run of insertions, unless it is empty. -/
def insertion : List α → Script α
  | [] => []
  | xs => [.insert xs]

/-- A run that is kept, unless it is empty. -/
def kept : List α → Script α
  | [] => []
  | xs => [.keep xs]

/-- A script from one list to another.  Common ends are kept; what is between them is
parted at a place where two paths meet, and replaced as a whole where none do. -/
def Script.between (old new : List α) : Script α :=
  let (before, old', new') := commonStart old new
  let (oldCore, newCore, after) := commonEnd old' new'
  let core : Script α :=
    if oldCore.isEmpty || newCore.isEmpty then deletion oldCore ++ insertion newCore
    else match middle? oldCore.toArray newCore.toArray with
      | none => deletion oldCore ++ insertion newCore
      | some (x, y) =>
        if _h : (oldCore.take x).length + (newCore.take y).length < old.length + new.length
            ∧ (oldCore.drop x).length + (newCore.drop y).length < old.length + new.length then
          between (oldCore.take x) (newCore.take y) ++ between (oldCore.drop x) (newCore.drop y)
        else deletion oldCore ++ insertion newCore
  kept before ++ core ++ kept after
termination_by old.length + new.length
decreasing_by
  · exact _h.1
  · exact _h.2

/-! ### Compaction -/

/-- The elements of a run. -/
def Hunk.elements {α : Type} : Hunk α → List α
  | keep xs | delete xs | insert xs => xs

/-- The number of elements in the runs of a script, and one more for each run. -/
def Script.weight {α : Type} : Script α → Nat
  | [] => 0
  | hunk :: script => hunk.elements.length + 1 + Script.weight script

theorem Script.weight_kept_append_lt {α : Type} {xs ys : List α} (h : xs.length < ys.length)
    (script : Script α) :
  Script.weight (kept xs ++ script) < Script.weight (.keep ys :: script)
  := by
  cases xs with
  | nil => simp only [kept, List.nil_append, Script.weight]; omega
  | cons x xs =>
    simp only [kept, List.cons_append, List.nil_append, Script.weight, Hunk.elements,
      List.length_cons] at h ⊢
    omega

/-- Puts kept elements in front of a script. -/
def keepBefore (xs : List α) : Script α → Script α
  | .keep ys :: rest => .keep (xs ++ ys) :: rest
  | rest => .keep xs :: rest

/-- Moves an insertion or deletion up past the runs before it, which are given last one
first, as far as it goes: it swaps with runs of the other sort, grows by runs of its own
sort, and an insertion slides over kept elements that it ends with. -/
def shiftUp (before : Script α) (this : Hunk α) (after : Script α) :
    Script α × Hunk α × Script α :=
  match before, this with
  | .keep [] :: before, this => shiftUp before this after
  | .keep xs :: before, .insert ys =>
    match commonEnd xs ys with
    | (_, _, []) => (.keep xs :: before, .insert ys, after)
    | (xs', ys', common) =>
      if xs'.length < xs.length then
        shiftUp (kept xs' ++ before) (.insert (common ++ ys')) (keepBefore common after)
      else (.keep xs :: before, .insert ys, after)
  | .delete xs :: before, .insert ys => shiftUp before (.insert ys) (.delete xs :: after)
  | .insert xs :: before, .insert ys => shiftUp before (.insert (xs ++ ys)) after
  | .insert xs :: before, .delete ys => shiftUp before (.delete ys) (.insert xs :: after)
  | .delete xs :: before, .delete ys => shiftUp before (.delete (xs ++ ys)) after
  | before, this => (before, this, after)
termination_by before.weight
decreasing_by
  all_goals first
    | exact Script.weight_kept_append_lt (by assumption) _
    | (simp only [Script.weight]; omega)

/-- Puts kept elements at the end of a script that is given last run first. -/
def keepAfter (xs : List α) : Script α → Script α
  | .keep ys :: rest => .keep (ys ++ xs) :: rest
  | rest => .keep xs :: rest

/-- Moves an insertion or deletion down past the runs after it, as `shiftUp` moves one up;
an insertion slides over kept elements that it starts with. -/
def shiftDown (before : Script α) (this : Hunk α) (after : Script α) :
    Script α × Hunk α × Script α :=
  match after, this with
  | .keep [] :: after, this => shiftDown before this after
  | .keep xs :: after, .insert ys =>
    match commonStart xs ys with
    | ([], _, _) => (before, .insert ys, .keep xs :: after)
    | (common, xs', ys') =>
      if xs'.length < xs.length then
        shiftDown (keepAfter common before) (.insert (ys' ++ common)) (kept xs' ++ after)
      else (before, .insert ys, .keep xs :: after)
  | .delete xs :: after, .insert ys => shiftDown (.delete xs :: before) (.insert ys) after
  | .insert xs :: after, .insert ys => shiftDown before (.insert (ys ++ xs)) after
  | .insert xs :: after, .delete ys => shiftDown (.insert xs :: before) (.delete ys) after
  | .delete xs :: after, .delete ys => shiftDown before (.delete (ys ++ xs)) after
  | after, this => (before, this, after)
termination_by after.weight
decreasing_by
  all_goals first
    | exact Script.weight_kept_append_lt (by assumption) _
    | (simp only [Script.weight]; omega)

/-- Shifts every run of one sort as far up and then as far down as it goes, from the first
one on.  The fuel bounds the number of runs that are looked at. -/
def sweep (isSort : Hunk α → Bool) : Nat → Script α → Script α → Script α
  | 0, before, after => before.reverse ++ after
  | _, before, [] => before.reverse
  | fuel + 1, before, this :: after =>
    if isSort this then
      let (before, this, after) := shiftUp before this after
      let (before, this, after) := shiftDown before this after
      sweep isSort fuel (this :: before) after
    else sweep isSort fuel (this :: before) after

def Hunk.isDelete : Hunk α → Bool
  | .delete _ => true
  | _ => false

def Hunk.isInsert : Hunk α → Bool
  | .insert _ => true
  | _ => false

/-- Moves the deletions of a script together, then its insertions. -/
def Script.compact (script : Script α) : Script α :=
  let fuel := (script.weight + 1) * (script.weight + 1)
  let script := sweep Hunk.isDelete fuel [] script
  sweep Hunk.isInsert fuel [] script

/-! ### Lines -/

/-- The lines of a text with their ends, which are `\n`, `\r\n` or a lone `\r`. -/
def lines : List Char → List (List Char)
  | [] => []
  | '\r' :: '\n' :: cs => ['\r', '\n'] :: lines cs
  | c :: cs =>
    if c = '\n' || c = '\r' then [c] :: lines cs
    else match lines cs with
      | [] => [[c]]
      | line :: rest => (c :: line) :: rest

/-- A changed line as it is printed: its sign, its number and itself, always ended. -/
def row (sign : Char) (number : Nat) (line : List Char) : List Char :=
  let ended := line.getLast? == some '\n' || line.getLast? == some '\r'
  sign :: (toString number).toList ++ [':', ' '] ++ line ++ if ended then [] else ['\n']

/-- The rows of a run of changed lines, the first of which has this number. -/
def rows (sign : Char) (first : Nat) (lines : List (List Char)) : List Char :=
  (lines.zipIdx first).flatMap fun (line, number) => row sign number line

/-- Prints a script from given line numbers on.  Between two kept runs, all deletions
come before all insertions; the insertions wait in `pending`. -/
def printFrom (old new : Nat) (pending : List Char) : Script (List Char) → List Char
  | [] => pending
  | .keep xs :: script => pending ++ printFrom (old + xs.length) (new + xs.length) [] script
  | .delete xs :: script => rows '-' old xs ++ printFrom (old + xs.length) new pending script
  | .insert xs :: script =>
    printFrom old (new + xs.length) (pending ++ rows '+' new xs) script

end Diff

/-- The changed lines between two texts, `-` for lines of the old and `+` for lines of
the new, with their numbers. -/
def lineDiff (old new : String) : String :=
  let script := Diff.Script.between (Diff.lines old.toList) (Diff.lines new.toList)
  String.ofList (Diff.printFrom 1 1 [] script.compact)

end MutationTesting
