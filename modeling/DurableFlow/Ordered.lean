/-!
# Lists in increasing order

Sets and maps are lists kept in the order of a comparison, without repetition. In a map a later value
replaces an earlier one of the same key.
-/

namespace DurableFlow.Ordered

variable {α β : Type} (cmp : α → α → Ordering)

/-- Adds an item unless an equal one is there. -/
def insert (x : α) : List α → List α
  | [] => [x]
  | y :: ys =>
    match cmp x y with
    | .lt => x :: y :: ys
    | .eq => y :: ys
    | .gt => y :: insert x ys

/-- The distinct items of a list, in order. -/
def ofList (xs : List α) : List α := xs.foldl (fun ys x => insert cmp x ys) []

/-- Binds a key, also one that is bound already. -/
def put (k : α) (v : β) : List (α × β) → List (α × β)
  | [] => [(k, v)]
  | e :: es =>
    match cmp k e.1 with
    | .lt => (k, v) :: e :: es
    | .eq => (e.1, v) :: es
    | .gt => e :: put k v es

/-- The map that binds each key as the last entry for it does. -/
def ofEntries (es : List (α × β)) : List (α × β) := es.foldl (fun m e => put cmp e.1 e.2 m) []

/-- Nothing precedes or equals what stands before it. -/
def Increasing (xs : List α) : Prop := xs.Pairwise fun x y => cmp x y = .lt

end DurableFlow.Ordered
