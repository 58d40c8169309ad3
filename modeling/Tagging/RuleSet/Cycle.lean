/-!
# Cycles

Names refer to other names, and following references must never lead back to where it started. The
search for a cycle goes down from every name in turn. It keeps the path that led to a name, on which a
name met again closes a cycle, and the names that are done with, below which there is none.
-/

namespace Tagging.Cycle

/-- The cycle that `name` closes at the end of a path, which is given innermost name first. The name
stands at both ends of it. -/
def close (path : List String) (name : String) : List String :=
  name :: (path.takeWhile (· != name)).reverse ++ [name]

/-- Goes down from `name`, at most `depth` references deep. The answer is either a cycle or the names
that are done with afterwards. -/
def visit (next : String → List String) :
    Nat → List String → List String → String → Except (List String) (List String)
  | 0, _, done, _ => .ok done
  | depth + 1, path, done, name =>
    if path.contains name then .error (close path name)
    else if done.contains name then .ok done
    else do
      let done ← (next name).foldlM (visit next depth (name :: path)) done
      return name :: done

/-- The first cycle that is met from the names in their order, if there is one. A path without one
has no more names than there are, so it ends in time. -/
def find? (next : String → List String) (names : List String) : Option (List String) :=
  match names.foldlM (visit next (names.length + 1) []) [] with
  | .ok _ => none
  | .error cycle => some cycle

end Tagging.Cycle
