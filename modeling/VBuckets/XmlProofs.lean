import VBuckets.ByteStringProofs

/-! # XML tokens

    The part of `encoding/xml` a streaming rewriter works with: the tokens a decoder
    yields, `Decoder.Skip`, and an encoder that checks the nesting of the tags it writes.
    A stream is any list of tokens: that a decoder in strict mode yields matching tags is
    nowhere assumed.

    Two stacks are folds over tokens.  `nest` follows the tags of a text that must be
    properly nested and fails where it is not; `openElements` counts the elements of any
    stream, as `Skip` does. -/

namespace Xml

open ByteString

/-! ## Tokens -/

/-- `xml.Name`. -/
structure Name where
  space : Bytes := []
  localName : Bytes
  deriving DecidableEq

/-- `xml.Attr`. -/
structure Attr where
  name : Name
  value : Bytes
  deriving DecidableEq

/-- What the decoder delivers.  Names are resolved already: the space is the
    namespace, not its prefix. -/
inductive Token where
  | startElement (name : Name) (attrs : List Attr)
  | endElement (name : Name)
  | charData (data : Bytes)
  | comment (data : Bytes)
  | procInst (target inst : Bytes)
  | directive (data : Bytes)
  deriving DecidableEq

/-- `Decoder.Skip` inside `depth` further elements: the tokens after the end of the
    element, unless the stream ends before. -/
def skip : Nat → List Token → Option (List Token)
  | _, [] => none
  | depth, .startElement _ _ :: ts => skip (depth + 1) ts
  | 0, .endElement _ :: ts => some ts
  | depth + 1, .endElement _ :: ts => skip depth ts
  | depth, _ :: ts => skip depth ts

/-! ## The encoder -/

/-- `EncodeToken` at the tokens of tags and text: the tags that are open and what was
    written. -/
structure Encoder where
  tags : List Name := []
  out : List Token := []

/-- The ways in which `EncodeToken` refuses a token. -/
inductive EncodeError where
  | startTagWithNoName
  | endTagWithNoName
  | endTagWithoutStartTag (name : Name)
  | endTagDoesNotMatch (name top : Name)
  deriving DecidableEq

namespace Encoder

/-- A start tag, which needs a name. -/
def writeStart (e : Encoder) (name : Name) (attrs : List Attr) : Except EncodeError Encoder :=
  if name.localName = [] then .error .startTagWithNoName
  else .ok { tags := e.tags ++ [name], out := e.out ++ [.startElement name attrs] }

/-- An end tag, which must close the element opened last, namespace included. -/
def writeEnd (e : Encoder) (name : Name) : Except EncodeError Encoder :=
  if name.localName = [] then .error .endTagWithNoName
  else
    match e.tags.getLast? with
    | none => .error (.endTagWithoutStartTag name)
    | some top =>
        if top ≠ name then .error (.endTagDoesNotMatch name top)
        else .ok { tags := e.tags.dropLast, out := e.out ++ [.endElement name] }

/-- A text is written wherever it stands. -/
def writeText (e : Encoder) (data : Bytes) : Encoder :=
  { e with out := e.out ++ [.charData data] }

end Encoder

/-! ## Nesting -/

/-- One token of a properly nested text. -/
def nest (opened : List Name) : Token → Option (List Name)
  | .startElement name _ => some (opened ++ [name])
  | .endElement name => if opened.getLast? = some name then some opened.dropLast else none
  | _ => some opened

/-- The tags open after a text, if it is properly nested so far. -/
def openTags (ts : List Token) : Option (List Name) := ts.foldlM nest []

/-- Every end tag closes the start tag it belongs to. -/
def Nested (ts : List Token) : Prop := (openTags ts).isSome = true

/-- The elements open after two parts are those the second leaves open after the
    first. -/
theorem openTags_append (ts us : List Token) :
    openTags (ts ++ us) = (openTags ts).bind (fun opened => us.foldlM nest opened) := by
  rw [openTags, List.foldlM_append]
  rfl

/-- Beginnings of nested documents are nested; a stream that breaks off is one. -/
theorem Nested.of_append {ts us : List Token} (h : Nested (ts ++ us)) : Nested ts := by
  rw [Nested, openTags_append] at h
  rw [Nested]
  cases hts : openTags ts with
  | none => rw [hts] at h; exact nomatch h
  | some opened => rfl

/-- One token of any stream: an end tag closes whatever is open. -/
def openStep (opened : List Name) : Token → List Name
  | .startElement name _ => opened ++ [name]
  | .endElement _ => opened.dropLast
  | _ => opened

/-- The elements of a stream that are open after it. -/
def openElements (ts : List Token) : List Name := ts.foldl openStep []

theorem openElements_append (ts us : List Token) :
    openElements (ts ++ us) = us.foldl openStep (openElements ts) :=
  List.foldl_append

/-- What `Skip` reads closes the element and nothing else. -/
theorem skip_some {depth : Nat} {ts rest : List Token} (h : skip depth ts = some rest) :
    ∃ inner, ts = inner ++ rest ∧ ∀ (opened more : List Name), more.length = depth + 1 →
      inner.foldl openStep (opened ++ more) = opened := by
  induction ts generalizing depth with
  | nil => exact nomatch h
  | cons t ts ih =>
      -- a token that leaves the elements as they are
      have hsame : ∀ {t : Token}, (∀ opened, openStep opened t = opened) →
          skip depth ts = some rest → ∃ inner, t :: ts = inner ++ rest ∧
            ∀ (opened more : List Name), more.length = depth + 1 →
              inner.foldl openStep (opened ++ more) = opened := by
        intro t ht hskip
        obtain ⟨inner, rfl, hinner⟩ := ih hskip
        refine ⟨t :: inner, rfl, fun opened more hmore => ?_⟩
        rw [List.foldl_cons, ht]
        exact hinner opened more hmore
      cases t with
      | startElement name attrs =>
          have hskip : skip (depth + 1) ts = some rest := by cases depth <;> exact h
          obtain ⟨inner, rfl, hinner⟩ := ih hskip
          refine ⟨.startElement name attrs :: inner, rfl, fun opened more hmore => ?_⟩
          rw [List.foldl_cons, openStep, List.append_assoc]
          exact hinner opened (more ++ [name]) (by simp [hmore])
      | endElement name =>
          cases depth with
          | zero =>
              obtain rfl : ts = rest := Option.some.inj h
              refine ⟨[.endElement name], rfl, fun opened more hmore => ?_⟩
              obtain ⟨m, rfl⟩ := List.length_eq_one_iff.mp hmore
              simp [openStep]
          | succ depth =>
              have hskip : skip depth ts = some rest := h
              obtain ⟨inner, rfl, hinner⟩ := ih hskip
              refine ⟨.endElement name :: inner, rfl, fun opened more hmore => ?_⟩
              have hne : more ≠ [] := List.ne_nil_of_length_pos (by omega)
              rw [List.foldl_cons, openStep, List.dropLast_append_of_ne_nil hne]
              exact hinner opened more.dropLast (by rw [List.length_dropLast]; omega)
      | charData | comment | procInst | directive =>
          exact hsame (fun _ => rfl) (by cases depth <;> exact h)

/-! ## Start tags -/

section
variable {P Q : List Token → Name → List Attr → List Token → Prop} {ts us : List Token}

/-- What holds of each start tag of a text, between what stands before it and after it. -/
def EachStart (P : List Token → Name → List Attr → List Token → Prop) (ts : List Token) : Prop :=
  ∀ before name attrs after, ts = before ++ .startElement name attrs :: after →
    P before name attrs after

theorem EachStart.mono (h : EachStart P ts)
    (hPQ : ∀ before name attrs after, P before name attrs after → Q before name attrs after) :
    EachStart Q ts :=
  fun before name attrs after hts => hPQ _ _ _ _ (h before name attrs after hts)

@[simp]
theorem eachStart_nil : EachStart P [] :=
  fun before _ _ _ h => absurd h.symm (List.append_ne_nil_of_right_ne_nil before (by simp))

/-- A start tag of a text in two parts is one of either part. -/
theorem EachStart.append (hts : EachStart (fun b n a p => P b n a (p ++ us)) ts)
    (hus : EachStart (fun b n a p => P (ts ++ b) n a p) us) : EachStart P (ts ++ us) := by
  intro before name attrs after h
  rcases List.append_eq_append_iff.mp h with ⟨mid, rfl, hmid⟩ | ⟨mid, rfl, hmid⟩
  · exact hus mid name attrs after hmid
  · cases mid with
    | nil =>
        have hfirst := hus [] name attrs after hmid.symm
        rw [List.append_nil, List.append_nil] at hfirst
        exact hfirst
    | cons t mid =>
        obtain ⟨rfl, rfl⟩ := List.cons.inj hmid
        exact hts before name attrs mid rfl

/-- The first start tag and the others; what stood before the others is longer by one. -/
@[simp]
theorem eachStart_cons_start {name : Name} {attrs : List Attr} :
    EachStart P (.startElement name attrs :: ts) ↔ P [] name attrs ts ∧
      EachStart (fun b n a p => P (.startElement name attrs :: b) n a p) ts := by
  constructor
  · intro h
    refine ⟨h [] name attrs ts rfl, fun before n a after hts => ?_⟩
    exact h (_ :: before) n a after (by rw [hts]; rfl)
  · rintro ⟨hfirst, hrest⟩ before n a after h
    cases before with
    | nil =>
        obtain ⟨htag, rfl⟩ := List.cons.inj h
        obtain ⟨rfl, rfl⟩ := Token.startElement.inj htag
        exact hfirst
    | cons t before =>
        obtain ⟨rfl, hts⟩ := List.cons.inj h
        exact hrest before n a after hts

theorem eachStart_of_forall_ne (h : ∀ t ∈ ts, ∀ name attrs, t ≠ .startElement name attrs) :
    EachStart P ts := by
  intro before name attrs after hts
  exact absurd rfl (h _ (by rw [hts]; simp) name attrs)

end

end Xml
