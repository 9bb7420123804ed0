import TreeBrowser.Json.Reader

/-!
# The tokens of a value

A value has one sequence of tokens without anything needless in it, and the reader takes it back to
the value whatever arrays and objects are open around it.
-/

namespace TreeBrowser.Json

mutual

def tokens : Json → List Token
  | .str text => [.quoted (some text)]
  | .arr [] => [.openArray, .closeArray]
  | .arr (v :: rest) => .openArray :: (tokens v ++ restTokens rest)
  | .obj [] => [.openObject, .closeObject]
  | .obj ((key, v) :: rest) =>
    .openObject :: .quoted (some key) :: .colon :: (tokens v ++ restMemberTokens rest)
  | v => [.scalar v]

/-- The tokens of the elements after the first one, and the end of their array. -/
def restTokens : List Json → List Token
  | [] => [.closeArray]
  | v :: rest => .comma :: (tokens v ++ restTokens rest)

/-- The tokens of the members after the first one, and the end of their object. -/
def restMemberTokens : List (String × Json) → List Token
  | [] => [.closeObject]
  | (key, v) :: rest =>
    .comma :: .quoted (some key) :: .colon :: (tokens v ++ restMemberTokens rest)

end

namespace Reading

def named (members : List (String × Json)) : List (Option String × Json) :=
  members.map fun (key, v) => (some key, v)

theorem object_named (members : List (String × Json)) :
    object (named members).reverse = .obj members := by
  have hnames : (named members).mapM (fun m => m.1.map fun key => (key, m.2)) = some members := by
    induction members with
    | nil => rfl
    | cons m rest ih =>
      rw [named, List.map_cons, List.mapM_cons]
      simp only [named] at ih
      simp [ih]
  unfold object
  split
  · rename_i read hread
    rw [List.reverse_reverse] at hread
    rw [Option.some.inj (hread.symm.trans hnames)]
  · rename_i hnone
    rw [List.reverse_reverse] at hnone
    cases hnone.symm.trans hnames

/-- Where an element may begin, the end of an array is all that a first place adds. -/
theorem foldlM_tokens_firstElem (v : Json) (outer : List Frame) :
    v.tokens.foldlM step (.firstElem outer) =
      v.tokens.foldlM step (.value (.elems [] :: outer)) := by
  unfold tokens
  split <;> rfl

mutual

-- By recursion on the value, for all that is open around it: what is read in between is put on top
-- and taken off again.
theorem foldlM_tokens (v : Json) (outer : List Frame) :
    v.tokens.foldlM step (.value outer) = some (.after v outer) := by
  cases v with
  | arr elems =>
    cases elems with
    | nil => rfl
    | cons first rest =>
      show (first.tokens ++ restTokens rest).foldlM step (.firstElem outer) = _
      rw [List.foldlM_append, foldlM_tokens_firstElem, foldlM_tokens first]
      exact foldlM_restTokens first rest [] outer
  | obj members =>
    cases members with
    | nil => rfl
    | cons first rest =>
      obtain ⟨key, v⟩ := first
      show (v.tokens ++ restMemberTokens rest).foldlM step
        (.value (.members [] (some key) :: outer)) = _
      rw [List.foldlM_append, foldlM_tokens v]
      exact foldlM_restMemberTokens key v rest [] outer
  | _ => rfl

theorem foldlM_restTokens (v : Json) (rest done : List Json) (outer : List Frame) :
    (restTokens rest).foldlM step (.after v (.elems done :: outer)) =
      some (.after (.arr (done.reverse ++ v :: rest)) outer) := by
  cases rest with
  | nil =>
    show some (after (.arr (v :: done).reverse) outer) = _
    rw [List.reverse_cons]
  | cons next rest =>
    show (next.tokens ++ restTokens rest).foldlM step (.value (.elems (v :: done) :: outer)) = _
    rw [List.foldlM_append, foldlM_tokens next]
    have hrest := foldlM_restTokens next rest (v :: done) outer
    rwa [List.reverse_cons, List.append_assoc] at hrest

theorem foldlM_restMemberTokens (key : String) (v : Json) (rest done : List (String × Json))
    (outer : List Frame) :
    (restMemberTokens rest).foldlM step
        (.after v (.members (named done).reverse (some key) :: outer)) =
      some (.after (.obj (done ++ (key, v) :: rest)) outer) := by
  have hdone : (some key, v) :: (named done).reverse = (named (done ++ [(key, v)])).reverse := by
    simp [named]
  cases rest with
  | nil =>
    show some (after (object ((some key, v) :: (named done).reverse)) outer) = _
    rw [hdone, object_named]
  | cons next rest =>
    obtain ⟨nextKey, next⟩ := next
    show (next.tokens ++ restMemberTokens rest).foldlM step
      (.value (.members ((some key, v) :: (named done).reverse) (some nextKey) :: outer)) = _
    rw [List.foldlM_append, foldlM_tokens next, hdone]
    have hrest := foldlM_restMemberTokens nextKey next rest (done ++ [(key, v)]) outer
    rwa [List.append_assoc] at hrest

end

end Reading

theorem ofTokens?_tokens (v : Json) : ofTokens? v.tokens = some v := by
  rw [ofTokens?, Reading.foldlM_tokens]
  rfl

end TreeBrowser.Json
