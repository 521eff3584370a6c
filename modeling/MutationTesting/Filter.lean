import MutationTesting.Settings

/-!
# Filters

A `Filter` says which mutations of a catalog are tested: by line, kind and priority.
-/

namespace MutationTesting

/-- Limits on the mutations that are run. -/
structure Filter where
  /-- Whether mutations above `lowLineThreshold` are left out. -/
  skipLowLines : Bool := false
  lowLineThreshold : Nat := 0
  /-- The first line that counts; 0 is no bound. -/
  minLine : Nat := 0
  /-- The last line that counts; 0 is no bound. -/
  maxLine : Nat := 0
  /-- The kinds that count; all if empty. -/
  categories : List MutationKind := []
  minPriority : Option Priority := none
  deriving DecidableEq, Repr

namespace Filter

/-- The filter that leaves nothing out. -/
def none : Filter := {}

def ofSettings (s : Settings) : Filter where
  skipLowLines := s.skipLowLines
  lowLineThreshold := s.lowLineThreshold
  minLine := s.minLine
  maxLine := s.maxLine
  categories := s.categories
  minPriority := s.minPriority

/-- The filter of the settings that hold when nothing is set. -/
def standard : Filter := ofSettings {}

/-- A mutation is accepted when it is within every limit. -/
def accepts (f : Filter) (m : Mutation) : Bool :=
  !(f.skipLowLines && m.line < f.lowLineThreshold)
    && !(0 < f.minLine && m.line < f.minLine)
    && !(0 < f.maxLine && f.maxLine < m.line)
    && (f.categories.isEmpty || f.categories.contains m.kind)
    && f.minPriority.all m.priority.atLeast

theorem accepts_none (m : Mutation) :
  none.accepts m = true
  := rfl

/-- The mutations that a filter lets through, in their order. -/
def select (f : Filter) (mutations : List Mutation) : List Mutation :=
  mutations.filter f.accepts

end Filter

end MutationTesting
