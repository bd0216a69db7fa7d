import CodeReference.Markup.Token

/-!
Markup cut into segments. Every segment takes at least one character, and put together the segments
are the markup again; each stands for one token, but the closing tags of void elements for none.
-/
namespace CodeReference.Markup

/-- A piece of markup and the token it stands for. -/
structure Segment where
  source : Text
  token? : Option Token
deriving Repr, DecidableEq

/-- What follows the closing bracket of `t`, after blanks of the class `blank`. -/
def closeBracket? (blank : Char → Bool) (t : Text) : Option Text :=
  match t.dropWhile blank with
  | '>' :: r => some r
  | _ => none

def endTag? (t : Text) : Option (Text × Text) := do
  let r ← Text.dropPrefix? ['<', '/'] t
  let (name, r) ← tagName? r
  let r ← closeBracket? Text.isAsciiBlank r
  return (name, r)

/-- An opening tag: its name as written, its attributes as written, whether a slash stands before
the closing bracket, and the rest. -/
def startTag? (t : Text) : Option (Text × Text × Bool × Text) := do
  let r ← Text.dropPrefix? ['<'] t
  let (name, r) ← tagName? r
  let body := r.takeWhile (· != '>')
  match r.dropWhile (· != '>') with
  | [] => none
  | _ :: r =>
    if body.getLast? = some '/' then some (name, body.dropLast, true, r)
    else some (name, body, false, r)

/-- Whether a character is a form of a small letter when case does not matter. The long s and the
dotted and dotless i are forms of the plain letters. -/
def isCaseOf (letter c : Char) : Bool :=
  c.toLower == letter || (letter == 's' && c == '\u017F') ||
    (letter == 'i' && (c == '\u0130' || c == '\u0131'))

def dropNameAnyCase? : (name t : Text) → Option Text
  | [], t => some t
  | _ :: _, [] => none
  | a :: name, c :: t => if isCaseOf a c then dropNameAnyCase? name t else none

def rawTextClose? (name t : Text) : Option Text := do
  let r ← Text.dropPrefix? ['<', '/'] t
  let r ← dropNameAnyCase? name r
  closeBracket? Text.isBlank r

/-- The content of a raw text element, and what follows the closing tag that ends it. -/
def rawTextContent? (name : Text) : Text → Option (Text × Text)
  | [] => none
  | c :: t =>
    match rawTextClose? name (c :: t) with
    | some r => some ([], r)
    | none => (rawTextContent? name t).map fun (content, r) => (c :: content, r)

/-- What the front of a text is cut into: a token or none, and the text after it. -/
structure Cut where
  token? : Option Token
  rest : Text

/-- A comment, which runs to the end of the markup if it is not closed. -/
def cutComment (t : Text) : Cut :=
  match Text.through? ['-', '-', '>'] (t.drop 4) with
  | some (body, r) => ⟨some (.comment (t.take 4 ++ body)), r⟩
  | none => ⟨some (.comment t), []⟩

/-- A declaration, which runs to the end of the markup if it is not closed. -/
def cutDoctype (t : Text) : Cut :=
  match Text.through? ['>'] t with
  | some (body, r) => ⟨some (.doctype body), r⟩
  | none => ⟨some (.doctype t), []⟩

/-- An opening tag, together with content and closing tag if they are raw text; a bracket that
opens no tag is text. -/
def cutStartTag (t : Text) : Cut :=
  match startTag? t with
  | none => ⟨some (.text ['<']), t.drop 1⟩
  | some (written, body, slash, r) =>
    let name := written.map Char.toLower
    let attributes := normalizeAttributes body
    let selfClosing := slash || isVoid name
    let tag := Token.startTag name attributes selfClosing
    if isRawText name && !selfClosing then
      match rawTextContent? name r with
      | some (content, r') => ⟨some (.rawText name attributes content), r'⟩
      | none => ⟨some tag, r⟩
    else ⟨some tag, r⟩

def cut (t : Text) : Cut :=
  if t.startsWith "<!--".toList then cutComment t
  else if t.startsWith "<!".toList then cutDoctype t
  else
    match endTag? t with
    | some (written, r) =>
      let name := written.map Char.toLower
      ⟨if isVoid name then none else some (.endTag name), r⟩
    | none =>
      if t.startsWith ['<'] then cutStartTag t
      else ⟨some (.text (t.takeWhile (· != '<'))), t.dropWhile (· != '<')⟩

/-! ## What is cut is a proper front part -/

theorem length_dropPrefix? {p t r : Text} (h : Text.dropPrefix? p t = some r) :
    t.length = p.length + r.length := by
  rw [Text.eq_append_of_dropPrefix? h, List.length_append]

theorem length_dropWhile_le (p : Char → Bool) (t : Text) :
    (t.dropWhile p).length ≤ t.length :=
  (List.dropWhile_suffix p).length_le

theorem length_through? {p t x r : Text} (h : Text.through? p t = some (x, r)) :
    x.length + r.length = t.length := by
  rw [← Text.through?_append h, List.length_append]

theorem length_tagName? {t name r : Text} (h : tagName? t = some (name, r)) :
    r.length ≤ t.length := by
  unfold tagName? at h
  split at h
  · split at h
    · cases h
      exact length_dropWhile_le _ _
    · simp at h
  · simp at h

theorem length_closeBracket? {p : Char → Bool} {t r : Text} (h : closeBracket? p t = some r) :
    r.length < t.length := by
  unfold closeBracket? at h
  split at h
  · rename_i r' hd
    have := length_dropWhile_le p t
    simp only [Option.some.injEq] at h
    subst h
    rw [hd, List.length_cons] at this
    omega
  · simp at h

theorem length_endTag? {t name r : Text} (h : endTag? t = some (name, r)) :
    r.length < t.length := by
  simp only [endTag?, bind, Option.bind_eq_some_iff, Prod.exists, pure, Option.some.injEq,
    Prod.mk.injEq] at h
  obtain ⟨r₁, h₁, n, r₂, h₂, r₃, h₃, rfl, rfl⟩ := h
  have := length_dropPrefix? h₁
  have := length_tagName? h₂
  have := length_closeBracket? h₃
  simp only [List.length_cons, List.length_nil] at *
  omega

theorem length_startTag? {t name body r : Text} {slash : Bool}
    (h : startTag? t = some (name, body, slash, r)) : r.length < t.length := by
  simp only [startTag?, bind, Option.bind_eq_some_iff, Prod.exists] at h
  obtain ⟨r₁, h₁, n, r₂, h₂, h₃⟩ := h
  have h₄ := length_dropPrefix? h₁
  have h₅ := length_tagName? h₂
  have h₆ := length_dropWhile_le (· != '>') r₂
  split at h₃
  · simp at h₃
  · rename_i c r₃ hr
    have : r = r₃ := by
      split at h₃ <;> simp_all
    subst this
    simp only [hr, List.length_cons, List.length_nil] at *
    omega

theorem length_rawTextClose? {name t r : Text} (h : rawTextClose? name t = some r) :
    r.length ≤ t.length := by
  have anyCase : ∀ {n u v : Text}, dropNameAnyCase? n u = some v → v.length ≤ u.length := by
    intro n u v
    fun_induction dropNameAnyCase? n u with
    | case1 => simp_all
    | case2 => simp
    | case3 a n c u _ ih => intro h; have := ih h; simp; omega
    | case4 => simp
  simp only [rawTextClose?, bind, Option.bind_eq_some_iff] at h
  obtain ⟨r₁, h₁, r₂, h₂, h₃⟩ := h
  have := length_dropPrefix? h₁
  have := anyCase h₂
  have := length_closeBracket? h₃
  omega

theorem length_rawTextContent? {name t content r : Text}
    (h : rawTextContent? name t = some (content, r)) : r.length ≤ t.length := by
  induction t generalizing content with
  | nil => simp [rawTextContent?] at h
  | cons c t ih =>
    rw [rawTextContent?] at h
    split at h
    · rename_i r' h'
      cases h
      exact length_rawTextClose? h'
    · simp only [Option.map_eq_some_iff, Prod.mk.injEq, Prod.exists] at h
      obtain ⟨x, y, h', _, rfl⟩ := h
      have := ih h'
      simp
      omega

theorem length_cutStartTag (c : Char) (t : Text) : (cutStartTag (c :: t)).rest.length < t.length + 1 := by
  unfold cutStartTag
  split
  · simp
  · rename_i h
    have h₁ := length_startTag? h
    simp only [List.length_cons] at h₁
    dsimp only
    split
    · split
      · rename_i h₂
        have := length_rawTextContent? h₂
        dsimp only
        omega
      · exact h₁
    · exact h₁

theorem length_cut (c : Char) (t : Text) : (cut (c :: t)).rest.length < t.length + 1 := by
  unfold cut
  split
  · rename_i h
    unfold cutComment
    split
    · rename_i h'
      have := length_through? h'
      simp only [List.length_drop, List.length_cons] at this
      have hp : (4 : Nat) ≤ t.length + 1 := by
        simp only [Text.startsWith, Option.isSome_iff_exists] at h
        obtain ⟨r, hr⟩ := h
        have := length_dropPrefix? hr
        simp at this
        omega
      dsimp only
      omega
    · simp
  · split
    · unfold cutDoctype
      split
      · rename_i body r h'
        have h₁ := length_through? h'
        simp only [List.length_cons] at h₁
        have : body ≠ [] := Text.through?_ne_nil (by simp) h'
        have := List.length_pos_iff.2 this
        dsimp only
        omega
      · simp
    · split
      · rename_i h
        have := length_endTag? h
        simpa using this
      · split
        · exact length_cutStartTag c t
        · rename_i _ h
          have hc : c ≠ '<' := by
            intro hc
            simp [hc, Text.startsWith, Text.dropPrefix?] at h
          dsimp only
          rw [List.dropWhile_cons_of_pos (by simpa using hc)]
          exact Nat.lt_succ_of_le (length_dropWhile_le _ _)

def segments : Text → List Segment
  | [] => []
  | c :: t =>
    let k := cut (c :: t)
    ⟨(c :: t).take (t.length + 1 - k.rest.length), k.token?⟩ :: segments k.rest
termination_by t => t.length
decreasing_by exact length_cut c t

def tokens (t : Text) : List Token := (segments t).filterMap Segment.token?

end CodeReference.Markup
