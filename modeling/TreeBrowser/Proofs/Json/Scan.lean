import TreeBrowser.Json.Printer
import TreeBrowser.Proofs.Json.Numeral
import TreeBrowser.Proofs.Json.Quoted
import TreeBrowser.Proofs.Json.Reader

/-!
# Written values read back

A scan of the compact form of a value finds the value's tokens, and the reader makes the value of
them. A number that is not a plain integer, or one too large for 64 binary digits, is written by its
text or by its digits, and what a reader makes of it depends on its magnitude; `Exact` leaves both
out.
-/

namespace TreeBrowser.Json

mutual

/-- The value has no numbers but integers of 64 binary digits, and each part denotes something. -/
def Exact : Json → Prop
  | .int n => n.natAbs < UInt64.size
  | .decimal _ => False
  | .unreadable => False
  | .arr elems => ExactElems elems
  | .obj members => ExactMembers members
  | _ => True

def ExactElems : List Json → Prop
  | [] => True
  | v :: rest => v.Exact ∧ ExactElems rest

def ExactMembers : List (String × Json) → Prop
  | [] => True
  | (_, v) :: rest => v.Exact ∧ ExactMembers rest

end

theorem joined_cons (separator item : List Char) (rest : List (List Char)) :
    joined separator (item :: rest) = item ++ rest.flatMap (separator ++ ·) := by
  induction rest generalizing item with
  | nil => simp [joined]
  | cons next rest ih =>
    show item ++ separator ++ joined separator (next :: rest) = _
    rw [ih, List.flatMap_cons, List.append_assoc, List.append_assoc]

namespace Scan

/-! ## What a scan finds -/

/-- The scan goes on over the characters and can end after them, with the given tokens found, newest
first. -/
def Finds (s : Scan) (cs : List Char) (tokens : List Token) : Prop :=
  ∃ s', cs.foldlM step s = some s' ∧ s'.settle = some tokens

theorem Finds.append {s : Scan} {cs ds : List Char} {tokens more : List Token}
    (h : s.Finds cs tokens) (hnext : ∀ s' : Scan, s'.settle = some tokens → s'.Finds ds more) :
    s.Finds (cs ++ ds) more := by
  obtain ⟨middle, hfirst, hsettled⟩ := h
  obtain ⟨last, hsecond, hmore⟩ := hnext middle hsettled
  refine ⟨last, ?_, hmore⟩
  rw [List.foldlM_append, hfirst]
  exact hsecond

theorem mem_of_endsWord {c : Char} (h : endsWord c = true) :
    c ∈ [' ', '\n', '\r', '\t', '"', '\x7b', '\x7d', '[', ']', ',', ':'] := by
  simp only [endsWord, Token.isBlank, Token.ofMark?, Bool.or_eq_true, beq_iff_eq] at h
  simp only [List.mem_cons, List.not_mem_nil, or_false]
  grind

/-! ## Marks -/

section Mark

variable {s : Scan} {c : Char} {token : Token} {tokens more : List Token}

theorem begin_mark (h : Token.ofMark? c = some token) (tokens : List Token) :
    begin tokens c = ⟨token :: tokens, .between⟩ := by
  have hblank : ∀ blank ∈ [' ', '\n', '\r', '\t', '"'], Token.ofMark? blank = none := by
    simp [Token.ofMark?]
  have hne : c ∉ [' ', '\n', '\r', '\t', '"'] := by
    intro hmem
    rw [hblank c hmem] at h
    cases h
  simp only [List.mem_cons, List.not_mem_nil, or_false, not_or] at hne
  simp [begin, Token.isBlank, hne, h]

theorem step_mark (h : Token.ofMark? c = some token) (hsettled : s.settle = some tokens) :
    s.step c = some ⟨token :: tokens, .between⟩ := by
  obtain ⟨found, place⟩ := s
  have hends : endsWord c = true := by simp [endsWord, h]
  cases place with
  | between =>
    obtain rfl := Option.some.inj hsettled
    exact congrArg some (begin_mark h found)
  | word read =>
    show (if endsWord c = true then _ else _) = _
    rw [if_pos hends, hsettled, Option.map_some, begin_mark h]
  | quote read => cases hsettled
  | escape read => cases hsettled

theorem finds_mark (h : Token.ofMark? c = some token) (hsettled : s.settle = some tokens) :
    s.Finds [c] (token :: tokens) :=
  ⟨_, by rw [List.foldlM_cons, step_mark h hsettled]; rfl, rfl⟩

theorem finds_mark_cons {cs : List Char} (h : Token.ofMark? c = some token)
    (hsettled : s.settle = some tokens) (hrest : Finds ⟨token :: tokens, .between⟩ cs more) :
    s.Finds (c :: cs) more := by
  obtain ⟨last, hrun, hmore⟩ := hrest
  refine ⟨last, ?_, hmore⟩
  rw [List.foldlM_cons, step_mark h hsettled]
  exact hrun

end Mark

theorem foldlM_push (place : List Char → Place) {tokens : List Token} {cs : List Char}
    (h : ∀ c ∈ cs, ∀ read, step ⟨tokens, place read⟩ c = some ⟨tokens, place (c :: read)⟩)
    (read : List Char) :
    cs.foldlM step ⟨tokens, place read⟩ = some ⟨tokens, place (cs.reverse ++ read)⟩ := by
  induction cs generalizing read with
  | nil => rfl
  | cons c rest ih =>
    rw [List.forall_mem_cons] at h
    rw [List.foldlM_cons, h.1, Option.bind_eq_bind, Option.bind_some, ih h.2, List.reverse_cons,
      List.append_assoc]
    rfl

/-! ## Words -/

theorem finds_word {word : List Char} {v : Json} (hne : word ≠ [])
    (hword : word.any endsWord = false) (hv : ofWord? word = some v) (tokens : List Token) :
    Finds ⟨tokens, .between⟩ word (.scalar v :: tokens) := by
  obtain ⟨first, rest, rfl⟩ := List.exists_cons_of_ne_nil hne
  rw [List.any_cons, Bool.or_eq_false_iff] at hword
  obtain ⟨hfirst, hrest⟩ := hword
  have hpush : ∀ c ∈ rest, ∀ read,
      step ⟨tokens, .word read⟩ c = some ⟨tokens, .word (c :: read)⟩ := by
    intro c hc read
    have hgoes := List.any_eq_false.1 hrest c hc
    simp [step, hgoes]
  have hbegin : begin tokens first = ⟨tokens, .word [first]⟩ := by
    simp only [endsWord, Bool.or_eq_false_iff, beq_eq_false_iff_ne, Option.isSome_eq_false_iff,
      Option.isNone_iff_eq_none] at hfirst
    obtain ⟨⟨hblank, hquote⟩, hmark⟩ := hfirst
    simp [begin, hblank, hquote, hmark]
  refine ⟨⟨tokens, .word (rest.reverse ++ [first])⟩, ?_, ?_⟩
  · rw [List.foldlM_cons]
    show (rest.foldlM step (begin tokens first)) = _
    rw [hbegin, foldlM_push .word hpush]
  · rw [settle, List.reverse_append, List.reverse_reverse]
    show (ofWord? (first :: rest)).map _ = _
    rw [hv, Option.map_some]

theorem endsWord_eq_false_of_isDigit {c : Char} (h : c.isDigit = true) : endsWord c = false := by
  have hmarks : ∀ mark ∈ [' ', '\n', '\r', '\t', '"', '\x7b', '\x7d', '[', ']', ',', ':'],
      mark.isDigit = false := by simp
  apply Bool.eq_false_iff.mpr
  intro hends
  rw [hmarks c (mem_of_endsWord hends)] at h
  cases h

theorem any_endsWord_intChars (n : Int) : (intChars n).any endsWord = false := by
  have hdigits (m : Nat) : (Nat.toDigits 10 m).any endsWord = false := by
    rw [List.any_eq_false]
    intro c hc
    rw [endsWord_eq_false_of_isDigit (isDigit_of_mem_toDigits hc)]
    exact Bool.false_ne_true
  cases n with
  | ofNat n => exact hdigits n
  | negSucc n =>
    rw [intChars, List.any_cons, hdigits, Bool.or_false]
    rfl

/-! ## Quoted texts -/

/-- A character that stands for itself between quotes. -/
def Plain (c : Char) : Prop :=
  c ≠ '"' ∧ c ≠ '\\' ∧ ¬ c < ' '

theorem plain_hexDigit (n : Nat) : Plain (Quoted.hexDigit n) := by
  have hdigit : ∀ m : Fin 16, Nat.digitChar m ≠ '"' ∧ Nat.digitChar m ≠ '\\' ∧
      ¬ Nat.digitChar m < ' ' := by decide
  exact hdigit ⟨n % 16, Nat.mod_lt _ (by omega)⟩

theorem foldlM_plain {cs : List Char} (h : ∀ c ∈ cs, Plain c) (tokens : List Token)
    (read : List Char) :
    cs.foldlM step ⟨tokens, .quote read⟩ = some ⟨tokens, .quote (cs.reverse ++ read)⟩ := by
  apply foldlM_push .quote
  intro c hc read
  obtain ⟨hquote, hbackslash, hcontrol⟩ := h c hc
  simp [step, hquote, hbackslash, hcontrol]

/-- An escape never ends the text: what follows its backslash is taken as it is, and the digits of a
control character are plain. -/
theorem foldlM_escapeChar (c : Char) (tokens : List Token) (read : List Char) :
    (Quoted.escapeChar c).foldlM step ⟨tokens, .quote read⟩ =
      some ⟨tokens, .quote ((Quoted.escapeChar c).reverse ++ read)⟩ := by
  obtain ⟨d, -, -, hescape⟩ | ⟨-, hescape⟩ | ⟨hquote, hbackslash, hcontrol, hescape⟩ :=
    Quoted.escapeChar_cases c
  · rw [hescape]
    rfl
  · have hdigits : ∀ d ∈ ['0', '0', Quoted.hexDigit (c.toNat / 16), Quoted.hexDigit c.toNat],
        Plain d := by
      have hzero : Plain '0' := by simp [Plain]
      simp [hzero, plain_hexDigit]
    rw [hescape]
    show (['0', '0', Quoted.hexDigit (c.toNat / 16), Quoted.hexDigit c.toNat]).foldlM step
      ⟨tokens, .quote ('u' :: '\\' :: read)⟩ = _
    rw [foldlM_plain hdigits]
    simp [Quoted.escapeControl]
  · have hplain : ∀ d ∈ [c], Plain d := List.forall_mem_singleton.mpr ⟨hquote, hbackslash, hcontrol⟩
    rw [hescape]
    exact foldlM_plain hplain tokens read

theorem foldlM_escaped (cs : List Char) (tokens : List Token) (read : List Char) :
    (cs.flatMap Quoted.escapeChar).foldlM step ⟨tokens, .quote read⟩ =
      some ⟨tokens, .quote ((cs.flatMap Quoted.escapeChar).reverse ++ read)⟩ := by
  induction cs generalizing read with
  | nil => rfl
  | cons c rest ih =>
    rw [List.flatMap_cons, List.foldlM_append, foldlM_escapeChar, Option.bind_eq_bind,
      Option.bind_some, ih, List.reverse_append, List.append_assoc]

theorem finds_encode (text : String) (tokens : List Token) :
    Finds ⟨tokens, .between⟩ (Quoted.encode text) (.quoted (some text) :: tokens) := by
  refine ⟨⟨.quoted (some text) :: tokens, .between⟩, ?_, rfl⟩
  rw [Quoted.encode, List.foldlM_cons]
  show (text.toList.flatMap Quoted.escapeChar ++ ['"']).foldlM step ⟨tokens, .quote []⟩ = _
  rw [List.foldlM_append, foldlM_escaped, List.append_nil]
  show (Quoted.decode? (text.toList.flatMap Quoted.escapeChar).reverse.reverse).map _ >>= _ = _
  rw [List.reverse_reverse, Quoted.decode?_escaped]
  rfl

/-! ## Values -/

theorem finds_member {key : String} {v : Json} {rest : List Char} {tokens more : List Token}
    (hv : ∀ found, Finds ⟨found, .between⟩ v.compact (v.tokens.reverse ++ found))
    (hrest : ∀ s : Scan,
      s.settle = some (v.tokens.reverse ++ .colon :: .quoted (some key) :: tokens) →
        s.Finds rest more) :
    Finds ⟨tokens, .between⟩ (Quoted.encode key ++ ':' :: (v.compact ++ rest)) more :=
  (finds_encode key tokens).append fun _ hsettled =>
    finds_mark_cons rfl hsettled ((hv _).append hrest)

mutual

theorem finds_compact (v : Json) (hexact : v.Exact) (tokens : List Token) :
    Finds ⟨tokens, .between⟩ v.compact (v.tokens.reverse ++ tokens) := by
  cases v with
  | null => exact finds_word (List.cons_ne_nil _ _) rfl rfl tokens
  | bool value =>
    cases value with
    | true => exact finds_word (List.cons_ne_nil _ _) rfl rfl tokens
    | false => exact finds_word (List.cons_ne_nil _ _) rfl rfl tokens
  | int n =>
    have hne : intChars n ≠ [] := by
      cases n with
      | ofNat n => exact Nat.toDigits_ne_nil
      | negSucc n => exact List.cons_ne_nil _ _
    exact finds_word hne (any_endsWord_intChars n) (ofWord?_intChars hexact) tokens
  | decimal text => exact hexact.elim
  | str text => exact finds_encode text tokens
  | arr elems =>
    cases elems with
    | nil => exact finds_mark_cons rfl rfl (finds_mark rfl rfl)
    | cons first rest =>
      obtain ⟨hfirst, hrest⟩ := hexact
      have hchars : (Json.arr (first :: rest)).compact =
          '[' :: (first.compact ++ ((compactElems rest).flatMap ([','] ++ ·) ++ [']'])) := by
        rw [compact, compactElems, joined_cons, List.cons_append, List.append_assoc]
      have htokens : (Json.arr (first :: rest)).tokens.reverse ++ tokens =
          (restTokens rest).reverse ++ (first.tokens.reverse ++ .openArray :: tokens) := by
        simp [Json.tokens]
      rw [hchars, htokens]
      -- The first element follows a mark, so no word is open where it begins.
      exact finds_mark_cons rfl rfl ((finds_compact first hfirst _).append fun s hsettled =>
        finds_restTokens rest hrest hsettled)
  | obj members =>
    cases members with
    | nil => exact finds_mark_cons rfl rfl (finds_mark rfl rfl)
    | cons first rest =>
      obtain ⟨key, v⟩ := first
      obtain ⟨hfirst, hrest⟩ := hexact
      have hchars : (Json.obj ((key, v) :: rest)).compact =
          '\x7b' :: (Quoted.encode key ++ ':' ::
            (v.compact ++ ((compactMembers rest).flatMap ([','] ++ ·) ++ ['\x7d']))) := by
        rw [compact, compactMembers, joined_cons]
        simp
      have htokens : (Json.obj ((key, v) :: rest)).tokens.reverse ++ tokens =
          (restMemberTokens rest).reverse ++
            (v.tokens.reverse ++ .colon :: .quoted (some key) :: .openObject :: tokens) := by
        simp [Json.tokens]
      rw [hchars, htokens]
      exact finds_mark_cons rfl rfl (finds_member (finds_compact v hfirst) fun s hsettled =>
        finds_restMemberTokens rest hrest hsettled)
  | unreadable => exact hexact.elim

theorem finds_restTokens (rest : List Json) (hexact : ExactElems rest) {s : Scan}
    {tokens : List Token} (hsettled : s.settle = some tokens) :
    s.Finds ((compactElems rest).flatMap ([','] ++ ·) ++ [']'])
      ((restTokens rest).reverse ++ tokens) := by
  cases rest with
  | nil => exact finds_mark rfl hsettled
  | cons next rest =>
    obtain ⟨hnext, hrest⟩ := hexact
    have hchars : (compactElems (next :: rest)).flatMap ([','] ++ ·) ++ [']'] =
        ',' :: (next.compact ++ ((compactElems rest).flatMap ([','] ++ ·) ++ [']'])) := by
      rw [compactElems, List.flatMap_cons, List.append_assoc]
      rfl
    have htokens : (restTokens (next :: rest)).reverse ++ tokens =
        (restTokens rest).reverse ++ (next.tokens.reverse ++ .comma :: tokens) := by
      simp [restTokens]
    rw [hchars, htokens]
    exact finds_mark_cons rfl hsettled ((finds_compact next hnext _).append fun s hsettled =>
      finds_restTokens rest hrest hsettled)

theorem finds_restMemberTokens (rest : List (String × Json)) (hexact : ExactMembers rest) {s : Scan}
    {tokens : List Token} (hsettled : s.settle = some tokens) :
    s.Finds ((compactMembers rest).flatMap ([','] ++ ·) ++ ['\x7d'])
      ((restMemberTokens rest).reverse ++ tokens) := by
  cases rest with
  | nil => exact finds_mark rfl hsettled
  | cons next rest =>
    obtain ⟨key, v⟩ := next
    obtain ⟨hnext, hrest⟩ := hexact
    have hchars : (compactMembers ((key, v) :: rest)).flatMap ([','] ++ ·) ++ ['\x7d'] =
        ',' :: (Quoted.encode key ++ ':' ::
          (v.compact ++ ((compactMembers rest).flatMap ([','] ++ ·) ++ ['\x7d']))) := by
      rw [compactMembers, List.flatMap_cons]
      simp
    have htokens : (restMemberTokens ((key, v) :: rest)).reverse ++ tokens =
        (restMemberTokens rest).reverse ++
          (v.tokens.reverse ++ .colon :: .quoted (some key) :: .comma :: tokens) := by
      simp [restMemberTokens]
    rw [hchars, htokens]
    exact finds_mark_cons rfl hsettled (finds_member (finds_compact v hnext) fun s hsettled =>
      finds_restMemberTokens rest hrest hsettled)

end

end Scan

theorem ofChars?_compact {v : Json} (h : v.Exact) : Token.ofChars? v.compact = some v.tokens := by
  obtain ⟨s, hrun, hsettled⟩ := Scan.finds_compact v h []
  rw [List.append_nil] at hsettled
  -- The scan holds its tokens newest first.
  show (v.compact.foldlM Scan.step ⟨[], .between⟩ >>= fun s => s.settle >>= fun tokens =>
    some tokens.reverse) = _
  rw [hrun, Option.bind_eq_bind, Option.bind_some, hsettled, Option.bind_eq_bind, Option.bind_some,
    List.reverse_reverse]

theorem ofText?_toText {v : Json} (h : v.Exact) : ofText? v.toText = some v := by
  rw [ofText?, toText, String.toList_ofList, ofChars?_compact h, Option.bind_eq_bind,
    Option.bind_some, ofTokens?_tokens]

mutual

theorem readable_of_exact (v : Json) (h : v.Exact) : v.readable = true := by
  cases v with
  | arr elems => exact readableElems_of_exact elems h
  | obj members => exact readableMembers_of_exact members h
  | decimal text => exact h.elim
  | unreadable => exact h.elim
  | _ => rfl

theorem readableElems_of_exact (elems : List Json) (h : ExactElems elems) :
    readableElems elems = true := by
  cases elems with
  | nil => rfl
  | cons v rest =>
    rw [readableElems, readable_of_exact v h.1, readableElems_of_exact rest h.2, Bool.and_self]

theorem readableMembers_of_exact (members : List (String × Json)) (h : ExactMembers members) :
    readableMembers members = true := by
  cases members with
  | nil => rfl
  | cons m rest =>
    obtain ⟨key, v⟩ := m
    rw [readableMembers, readable_of_exact v h.1, readableMembers_of_exact rest h.2, Bool.and_self]

end

end TreeBrowser.Json
