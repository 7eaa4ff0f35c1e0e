import VBuckets.ResponseProofs
import VBuckets.StrconvProofs

/-! # Rewriting a response

    `rewriteNamespaceXML` reads the tokens of an upstream document one after another and
    writes the document a client sees.  The output is sent while the input is still being
    read, so a failure carries what was written before it.

    A round of the loop reads one token, or one whole element where its contents are
    skipped or replaced.  `Move` says once what a round that succeeds does to the encoder,
    and `PartialRound` what a round that fails has written: everything about the output is
    derived from these two, through the one lemma `rewriteToken_yields`. -/

namespace S3

open ByteString Url Http Mapping Xml

/-! ## The variables of the loop -/

/-- The variables of `rewriteNamespaceXML`, together with what its encoder has
    written. -/
structure Rewriter where
  stack : List Bytes := []
  seenRoot : Bool := false
  seenFields : List Bytes := []
  listPartsTruncated : Option Bool := none
  listObjectsTruncated : Option Bool := none
  listMultipartTruncated : Option Bool := none
  emptyNextContinuationToken : Bool := false
  emptyNextUploadIDMarker : Bool := false
  listContentsOwnerSeen : List Bool := []
  encoder : Encoder := {}

/-- An error, and what was written before it. -/
structure RewriteFailure where
  out : List Token
  reason : Reason

/-- The messages of the encoder's errors. -/
def encodeReason : EncodeError → Reason
  | .startTagWithNoName => { format := "xml: start tag with no name" }
  | .endTagWithNoName => { format := "xml: end tag with no name" }
  | .endTagWithoutStartTag name =>
      { format := "xml: end tag </%s> without start tag", args := [name.localName] }
  | .endTagDoesNotMatch name top =>
      if top.localName ≠ name.localName then
        { format := "xml: end tag </%s> does not match start tag <%s>"
          args := [name.localName, top.localName] }
      else
        { format := "xml: end tag </%s> in namespace %s does not match start tag <%s> in " ++
            "namespace %s"
          args := [name.localName, name.space, top.localName, top.space] }

namespace Rewriter

variable (s : Rewriter)

/-- A failure, with what was written before it: a client may have received that
    already. -/
def fail (reason : Reason) : RewriteFailure := ⟨s.encoder.out, reason⟩

/-- Where the loop stands. -/
def path : Bytes := join 47 s.stack

/-- Writes a start tag. -/
def encodeStart (name : Name) (attrs : List Attr) : Except RewriteFailure Rewriter :=
  match s.encoder.writeStart name attrs with
  | .error e => .error (s.fail (encodeReason e))
  | .ok encoder => .ok { s with encoder := encoder }

/-- Writes an end tag, which has to be the one of the element opened last. -/
def encodeEnd (name : Name) : Except RewriteFailure Rewriter :=
  match s.encoder.writeEnd name with
  | .error e => .error (s.fail (encodeReason e))
  | .ok encoder => .ok { s with encoder := encoder }

/-- Writes a text. -/
def encodeText (data : Bytes) : Rewriter := { s with encoder := s.encoder.writeText data }

/-- An entry is remembered when it opens, and that it has an owner when that opens. -/
def trackOwner (path : Bytes) : Rewriter :=
  if path = ascii "ListBucketResult/Contents" then
    { s with listContentsOwnerSeen := s.listContentsOwnerSeen ++ [false] }
  else if path = ascii "ListBucketResult/Contents/Owner" ∧ s.listContentsOwnerSeen ≠ [] then
    { s with listContentsOwnerSeen := s.listContentsOwnerSeen.dropLast ++ [true] }
  else s

/-- `strconv.ParseBool` where a text it refuses counts as false. -/
def parsedBool (text : Bytes) : Bool := (Strconv.parseBool (trimSpace text)).getD false

/-- What the loop remembers of a field. -/
def record (path text : Bytes) : Rewriter :=
  { s with
    seenFields := path :: s.seenFields
    listPartsTruncated :=
      if path = ascii "ListPartsResult/IsTruncated" then some (parsedBool text)
      else s.listPartsTruncated
    listObjectsTruncated :=
      if path = ascii "ListBucketResult/IsTruncated" then some (parsedBool text)
      else s.listObjectsTruncated
    listMultipartTruncated :=
      if path = ascii "ListMultipartUploadsResult/IsTruncated" then some (parsedBool text)
      else s.listMultipartTruncated
    emptyNextContinuationToken :=
      if path = ascii "ListBucketResult/NextContinuationToken" then decide (text = [])
      else s.emptyNextContinuationToken
    emptyNextUploadIDMarker :=
      if path = ascii "ListMultipartUploadsResult/NextUploadIdMarker" then decide (text = [])
      else s.emptyNextUploadIDMarker }

end Rewriter

/-! ## One round -/

section
variable (c : ResponseContext)

/-- The text of a field up to its end tag, of at most one mebibyte and without elements in it;
    `atEnd` is the error of a decoder that has no more tokens. -/
def readElementText (atEnd : Reason) (name : Name) :
    Bytes → List Token → Except Reason (Bytes × List Token)
  | _, [] => .error atEnd
  | text, .charData data :: ts =>
      if maxS3ControlResponseBytes < text.length + data.length then
        .error
          { format := "upstream XML field exceeds %d bytes"
            args := [Time.formatInt maxS3ControlResponseBytes] }
      else readElementText atEnd name (text ++ data) ts
  | text, .endElement endName :: ts =>
      if endName ≠ name then
        .error { format := "unexpected XML end element %q", args := [endName.localName] }
      else .ok (text, ts)
  | _, .startElement _ _ :: _ =>
      .error
        { format := "namespace-bearing XML field %q must contain text only"
          args := [name.localName] }
  | text, _ :: ts => readElementText atEnd name text ts

/-- The checks of a start tag before its path. -/
def checkStart (s : Rewriter) (name : Name) : Except Reason Unit := do
  refuseIf (s.seenRoot && s.stack.isEmpty)
    { format := "multiple top-level XML elements are not supported" }
  refuseIf (name.space != [] && name.space != s3XMLNamespace)
    { format := "foreign XML namespace %q is not supported", args := [name.space] }
  refuseIf (!s.seenRoot && expectedResponseRoot c.plan.responseProfile != [] &&
      name.localName != expectedResponseRoot c.plan.responseProfile)
    { format := "unexpected %s response root %q"
      args := [ascii c.plan.responseProfile.text, name.localName] }

/-- The two fields of an identity, both the virtual bucket. -/
def identityFields : List Bytes := [ascii "ID", ascii "DisplayName"]

/-- Owners and initiators are shown as the virtual bucket, in each of their fields. -/
def encodeIdentity (s : Rewriter) : List Bytes → Except RewriteFailure Rewriter
  | [] => .ok s
  | field :: fields => do
      let s ← s.encodeStart { localName := field } []
      let s ← (s.encodeText c.plan.bucket).encodeEnd { localName := field }
      encodeIdentity s fields

/-- The contents of an identity are replaced. -/
def rewriteIdentity (atEnd : Reason) (s : Rewriter) (name : Name) (rest : List Token) :
    Except RewriteFailure (Rewriter × List Token) :=
  match skip 0 rest with
  | none => .error (s.fail atEnd)
  | some rest => do
      let s ← encodeIdentity c s identityFields
      let s ← s.encodeEnd name
      .ok (s, rest)

/-- The text of a field is read as a whole before any of it is written. -/
def rewriteField (atEnd : Reason) (s : Rewriter) (name : Name) (path : Bytes)
    (transform : TextTransform) (rest : List Token) :
    Except RewriteFailure (Rewriter × List Token) := do
  let (text, rest) ← (readElementText atEnd name [] rest).mapError s.fail
  let text ← (applyResponseTextTransform c transform path text).mapError s.fail
  let s ← (s.encodeText text).encodeEnd name
  .ok (s.record path text, rest)

/-- A start tag whose path is in the schema: it is written with the attributes that are
    safe, then its rule decides what happens to its contents. -/
def rewriteKnown (atEnd : Reason) (s : Rewriter) (name : Name) (attrs : List Attr)
    (path : Bytes) (rest : List Token) : Except RewriteFailure (Rewriter × List Token) := do
  let s ← (s.trackOwner path).encodeStart name (filterSafeXMLAttributes c attrs)
  let rule := (responseFieldRuleForPath c.plan.responseProfile path).getD {}
  if rule.identityContainer then rewriteIdentity c atEnd s name rest
  else if rule.transform ≠ .none then rewriteField c atEnd s name path rule.transform rest
  else .ok ({ s with stack := s.stack ++ [name.localName] }, rest)

/-- A start tag.  It is checked first, then written if its path is in the schema,
    refused inside a text, and otherwise skipped with what is in it. -/
def rewriteStart (atEnd : Reason) (s : Rewriter) (name : Name) (attrs : List Attr)
    (rest : List Token) : Except RewriteFailure (Rewriter × List Token) := do
  (checkStart c s name).mapError s.fail
  let s := { s with seenRoot := true }
  let path := join 47 (s.stack ++ [name.localName])
  if knownResponsePath c.plan.responseProfile path then
    rewriteKnown c atEnd s name attrs path rest
  else if s.path ≠ [] && knownResponsePath c.plan.responseProfile s.path &&
      !responsePathIsContainer c.plan.responseProfile s.path then
    .error (s.fail { format := "nested element inside scalar XML path %q", args := [s.path] })
  else
    match skip 0 rest with
    | none => .error (s.fail atEnd)
    | some rest => .ok (s, rest)

/-- An entry that closes must have had an owner if the request asked for owners. -/
def closeEntry (s : Rewriter) : Except RewriteFailure Rewriter :=
  if s.path = ascii "ListBucketResult/Contents" then
    match s.listContentsOwnerSeen.getLast? with
    | none => .error (s.fail { format := "invalid ListObjects owner tracking state" })
    | some ownerSeen =>
        if c.plan.query.get (ascii "fetch-owner") = ascii "true" ∧ ownerSeen = false then
          .error (s.fail
            { format := "ListObjects response omitted Owner requested by fetch-owner" })
        else .ok { s with listContentsOwnerSeen := s.listContentsOwnerSeen.dropLast }
  else .ok s

/-- An end tag: it closes the element opened last, and with it an entry of a listing if
    it was one. -/
def rewriteEnd (s : Rewriter) (name : Name) : Except RewriteFailure Rewriter :=
  if s.stack = [] then .error (s.fail { format := "unbalanced upstream XML" })
  else do
    let s ← closeEntry c s
    { s with stack := s.stack.dropLast }.encodeEnd name

/-- A text outside a field: in an element the schema lets through it is content,
    between elements only white space may stand. -/
def rewriteText (s : Rewriter) (data : Bytes) : Except RewriteFailure Rewriter :=
  if trimSpace data ≠ [] && (!knownResponsePath c.plan.responseProfile s.path ||
      responsePathIsContainer c.plan.responseProfile s.path) then
    .error (s.fail
      { format := "unexpected mixed text in upstream XML path %q", args := [s.path] })
  else .ok (s.encodeText data)

/-- One round.  A token is of one of six kinds, so there is no other branch. -/
def rewriteToken (atEnd : Reason) (s : Rewriter) (rest : List Token) :
    Token → Except RewriteFailure (Rewriter × List Token)
  | .startElement name attrs => rewriteStart c atEnd s name attrs rest
  | .endElement name => (rewriteEnd c s name).map (fun s => (s, rest))
  | .charData data => (rewriteText c s data).map (fun s => (s, rest))
  -- comments, directives and instructions could carry names of the backend
  | .comment _ | .directive _ | .procInst _ _ => .ok (s, rest)

/-! ## The loop -/

/-- The loop.  Each round reads a token, so their number bounds the rounds. -/
def rewriteLoop (failure : Option Reason) :
    Nat → Rewriter → List Token → Except RewriteFailure Rewriter
  | _, s, [] =>
      match failure with
      | none => .ok s
      | some e => .error (s.fail e)
  | 0, s, _ :: _ => .error (s.fail { format := "EOF" })
  | rounds + 1, s, t :: rest => do
      let (s, rest) ← rewriteToken c (failure.getD { format := "EOF" }) s rest t
      rewriteLoop failure rounds s rest

/-- The checks of a document that was read to its end: it is complete, every required
    field was seen, and a truncated page says where to go on. -/
def checkDocument (s : Rewriter) : Except Reason Unit := do
  refuseIf (!s.seenRoot || !s.stack.isEmpty) { format := "incomplete upstream XML" }
  checkEach (fun e => refuseIf (e.2.required && !s.seenFields.contains e.1)
    { format := "upstream %s response is missing required field %s"
      args := [ascii c.plan.responseProfile.text, e.1] })
    (responseFieldRules c.plan.responseProfile)
  refuseIf (c.plan.responseProfile = .listParts && s.listPartsTruncated == some true &&
      !s.seenFields.contains (ascii "ListPartsResult/NextPartNumberMarker"))
    { format := "truncated list parts response is missing its next marker" }
  refuseIf (s.seenFields.contains (ascii "ListBucketResult/NextContinuationToken") &&
      s.emptyNextContinuationToken && s.listObjectsTruncated != some false)
    { format := "empty next continuation token is valid only for a nontruncated response" }
  refuseIf (s.seenFields.contains (ascii "ListMultipartUploadsResult/NextUploadIdMarker") &&
      s.emptyNextUploadIDMarker && s.listMultipartTruncated != some false)
    { format := "empty next upload ID marker is valid only for a nontruncated response" }

/-- `rewriteNamespaceXML` on the tokens of a decoder, which then ends or fails: the
    tokens of the document the client gets, or how far it got. -/
def rewriteNamespaceXML (tokens : List Token) (failure : Option Reason) :
    Except RewriteFailure (List Token) := do
  let s ← rewriteLoop c failure tokens.length {} tokens
  (checkDocument c s).mapError s.fail
  .ok s.encoder.out

/-- What was written, whether rewriting succeeds or fails. -/
def rewritten (tokens : List Token) (failure : Option Reason) : List Token :=
  match rewriteNamespaceXML c tokens failure with
  | .ok out => out
  | .error e => e.out

end

/-! ## What a round writes -/

/-- The path of an element below those that are open. -/
def pathOf (opened : List Name) (name : Name) : Bytes :=
  join 47 (opened.map Name.localName ++ [name.localName])

/-- Tokens that are no tags. -/
def isTag : Token → Bool
  | .startElement _ _ | .endElement _ => true
  | _ => false

/-- The text among tokens. -/
def textOf : List Token → Bytes
  | [] => []
  | .charData data :: ts => data ++ textOf ts
  | _ :: ts => textOf ts

/-- The tokens of one field of an identity. -/
def identityField (bucket field : Bytes) : List Token :=
  [.startElement { localName := field } [], .charData bucket, .endElement { localName := field }]

/-- What an identity holds, up to its end tag. -/
def identityContents (bucket : Bytes) (name : Name) : List Token :=
  identityFields.flatMap (identityField bucket) ++ [.endElement name]

/-- What a field holds, up to its end tag. -/
def fieldContents (text : Bytes) (name : Name) : List Token :=
  [.charData text, .endElement name]

/-- Tokens that close the element before them and nothing else. -/
def Closes (inner : List Token) : Prop :=
  ∀ (opened : List Name) (name : Name), inner.foldl openStep (opened ++ [name]) = opened

section
variable (c : ResponseContext)

/-- The rule of a path, or the one that does nothing. -/
def ruleAt (path : Bytes) : ResponseFieldRule :=
  (responseFieldRuleForPath c.plan.responseProfile path).getD {}

/-- What a round that succeeds reads, and does to the encoder. -/
inductive Move : Encoder → List Token → Encoder → Prop
  | skipped {e : Encoder} {name : Name} {attrs : List Attr} {inner : List Token}
      (hclose : Closes inner) : Move e (.startElement name attrs :: inner) e
  | opened {e : Encoder} {name : Name} {attrs : List Attr}
      (hknown : knownResponsePath c.plan.responseProfile (pathOf e.tags name) = true)
      (hplain : (ruleAt c (pathOf e.tags name)).identityContainer = false ∧
        (ruleAt c (pathOf e.tags name)).transform = .none) :
      Move e [.startElement name attrs]
        { tags := e.tags ++ [name]
          out := e.out ++ [.startElement name (filterSafeXMLAttributes c attrs)] }
  | identity {e : Encoder} {name : Name} {attrs : List Attr} {inner : List Token}
      (hknown : knownResponsePath c.plan.responseProfile (pathOf e.tags name) = true)
      (hrule : (ruleAt c (pathOf e.tags name)).identityContainer = true)
      (hclose : Closes inner) :
      Move e (.startElement name attrs :: inner)
        { e with out := e.out ++ .startElement name (filterSafeXMLAttributes c attrs) ::
            identityContents c.plan.bucket name }
  | field {e : Encoder} {name : Name} {attrs : List Attr} {inner : List Token} {text : Bytes}
      (hknown : knownResponsePath c.plan.responseProfile (pathOf e.tags name) = true)
      (hrule : (ruleAt c (pathOf e.tags name)).identityContainer = false)
      (htext : inner.all (fun t => !isTag t) = true)
      (happly : applyResponseTextTransform c (ruleAt c (pathOf e.tags name)).transform
        (pathOf e.tags name) (textOf inner) = .ok text) :
      Move e (.startElement name attrs :: (inner ++ [.endElement name]))
        { e with out := e.out ++ .startElement name (filterSafeXMLAttributes c attrs) ::
            fieldContents text name }
  | closed {e : Encoder} {tags : List Name} {name : Name} (htags : e.tags = tags ++ [name]) :
      Move e [.endElement name] { tags := tags, out := e.out ++ [.endElement name] }
  | text {e : Encoder} {data : Bytes} : Move e [.charData data] (e.writeText data)
  | dropped {e : Encoder} {t : Token} (ht : isTag t = false) : Move e [t] e

end

/-! ## Outcomes -/

/-- What holds of an outcome: `failed` of what was written before a failure, `done` of a
    result. -/
def Yields {α : Type} (failed : List Token → Prop) (done : α → Prop) :
    Except RewriteFailure α → Prop
  | .error f => failed f.out
  | .ok a => done a

namespace Yields

variable {α β : Type} {failed failed' : List Token → Prop} {done : α → Prop}
  {a : Except RewriteFailure α}

/-- In a sequence the second part starts from what the first has ensured.  Failures of
    either are covered. -/
theorem bind {done' : β → Prop} {f : α → Except RewriteFailure β}
    (ha : Yields failed done a) (hf : ∀ x, done x → Yields failed done' (f x)) :
    Yields failed done' (a >>= f) := by
  cases a with
  | error e => exact ha
  | ok x => exact hf x ha

/-- Less may be ensured, and failures may be covered more loosely. -/
theorem mono {done' : α → Prop} (hfailed : ∀ out, failed out → failed' out)
    (hdone : ∀ x, done x → done' x) (ha : Yields failed done a) : Yields failed' done' a := by
  cases a with
  | error e => exact hfailed e.out ha
  | ok x => exact hdone x ha

theorem map {done' : β → Prop} {f : α → β} (ha : Yields failed (fun x => done' (f x)) a) :
    Yields failed done' (a.map f) := by
  cases a with
  | error | ok => exact ha

end Yields

namespace Rewriter

/-- The loop after it wrote; the rest of its variables stay. -/
def wrote (s : Rewriter) (tags : List Name) (more : List Token) : Rewriter :=
  { s with encoder := { tags := tags, out := s.encoder.out ++ more } }

variable (s : Rewriter) (name : Name) (attrs : List Attr)

/-- A check fails before anything else is written. -/
theorem check_yields {α : Type} (a : Except Reason α) :
    Yields (· = s.encoder.out) (fun x => a = .ok x) (a.mapError s.fail) := by
  cases a with
  | error | ok => exact rfl

/-- An end tag that is written closes the element opened last. -/
theorem encodeEnd_yields :
    Yields (· = s.encoder.out)
      (fun s' => ∃ tags, s.encoder.tags = tags ++ [name] ∧ s' = s.wrote tags [.endElement name])
      (s.encodeEnd name) := by
  rw [encodeEnd, Encoder.writeEnd]
  by_cases hname : name.localName = []
  · rw [if_pos hname]
    exact rfl
  · rw [if_neg hname]
    cases htop : s.encoder.tags.getLast? with
    | none => exact rfl
    | some top =>
        by_cases hne : top = name
        · obtain ⟨tags, htags⟩ := List.getLast?_eq_some_iff.mp htop
          rw [hne] at htags
          simp only [hne, ne_eq, not_true_eq_false, if_false]
          refine ⟨tags, htags, ?_⟩
          rw [htags, List.dropLast_concat, wrote]
        · simp only [ne_eq, hne, not_false_eq_true, if_true]
          exact rfl

variable {s name}

theorem encodeEnd_of_open {tags : List Name} (hname : name.localName ≠ [])
    (htags : s.encoder.tags = tags ++ [name]) :
    s.encodeEnd name = .ok (s.wrote tags [.endElement name]) := by
  rw [encodeEnd, Encoder.writeEnd, if_neg hname, htags, List.getLast?_concat,
    List.dropLast_concat]
  simp [wrote]

@[simp]
theorem wrote_tags (tags : List Name) (more : List Token) :
    (s.wrote tags more).encoder.tags = tags :=
  rfl

theorem encodeText_eq (data : Bytes) :
    s.encodeText data = s.wrote s.encoder.tags [.charData data] :=
  rfl

theorem wrote_wrote (tags tags' : List Name) (more more' : List Token) :
    (s.wrote tags more).wrote tags' more' = s.wrote tags' (more ++ more') := by
  simp only [wrote, List.append_assoc]

end Rewriter

/-! ## Elements that are replaced -/

section
variable {c : ResponseContext} {atEnd : Reason} {s : Rewriter} {name : Name}
  {tags : List Name}

/-- The fields of an identity can always be written, as their names are not empty. -/
theorem encodeIdentity_eq (fields : List Bytes) (hfields : ∀ field ∈ fields, field ≠ []) :
    encodeIdentity c s fields =
      .ok (s.wrote s.encoder.tags (fields.flatMap (identityField c.plan.bucket))) := by
  induction fields generalizing s with
  | nil =>
      rw [encodeIdentity, List.flatMap_nil, Rewriter.wrote, List.append_nil]
  | cons field fields ih =>
      have hfield : ({ localName := field } : Name).localName ≠ [] := hfields field List.mem_cons_self
      have hstart : s.encodeStart { localName := field } [] =
          .ok (s.wrote (s.encoder.tags ++ [{ localName := field }])
            [.startElement { localName := field } []]) := by
        rw [Rewriter.encodeStart, Encoder.writeStart, if_neg hfield, Rewriter.wrote]
      rw [encodeIdentity, hstart]
      show (do
        let s ← (Rewriter.encodeText (s.wrote _ _) c.plan.bucket).encodeEnd { localName := field }
        encodeIdentity c s fields) = _
      rw [Rewriter.encodeText_eq, Rewriter.wrote_wrote, Rewriter.wrote_tags,
        Rewriter.encodeEnd_of_open (s := s.wrote _ _) hfield rfl, Rewriter.wrote_wrote]
      show encodeIdentity c (s.wrote s.encoder.tags _) fields = _
      rw [ih fun f hf => hfields f (List.mem_cons_of_mem _ hf), Rewriter.wrote_wrote]
      rfl

/-- What is skipped is the contents of an element, with its end tag. -/
theorem skip_closes {ts rest : List Token} (h : skip 0 ts = some rest) :
    ∃ inner, ts = inner ++ rest ∧ Closes inner := by
  obtain ⟨inner, hts, hinner⟩ := skip_some h
  exact ⟨inner, hts, fun opened name => hinner opened [name] rfl⟩

/-- The contents of an identity are skipped in the input and replaced in the output. -/
theorem rewriteIdentity_yields (rest : List Token) (hname : name.localName ≠ [])
    (htags : s.encoder.tags = tags ++ [name]) :
    Yields (· = s.encoder.out)
      (fun r => (∃ inner, rest = inner ++ r.2 ∧ Closes inner) ∧
        r.1 = s.wrote tags (identityContents c.plan.bucket name))
      (rewriteIdentity c atEnd s name rest) := by
  rw [rewriteIdentity]
  cases hskip : skip 0 rest with
  | none => exact rfl
  | some rest' =>
      simp only []
      rw [encodeIdentity_eq identityFields (by decide)]
      show Yields _ _ (do
        let s ← Rewriter.encodeEnd _ name
        .ok (s, rest'))
      rw [Rewriter.encodeEnd_of_open (s := s.wrote _ _) hname htags, Rewriter.wrote_wrote]
      exact ⟨skip_closes hskip, rfl⟩

/-- The text of a field is all the text up to its end tag, with no tag in between. -/
theorem readElementText_ok {text text' : Bytes} {ts rest : List Token}
    (h : readElementText atEnd name text ts = .ok (text', rest)) :
    ∃ inner, ts = inner ++ .endElement name :: rest ∧
      inner.all (fun t => !isTag t) = true ∧ text' = text ++ textOf inner := by
  induction ts generalizing text with
  | nil => exact nomatch h
  | cons t ts ih =>
      -- a token between the tags is passed over, with its text
      have hstep : ∀ text₁, isTag t = false → text₁ = text ++ textOf [t] →
          readElementText atEnd name text₁ ts = .ok (text', rest) →
          ∃ inner, t :: ts = inner ++ .endElement name :: rest ∧
            inner.all (fun t => !isTag t) = true ∧ text' = text ++ textOf inner := by
        rintro text₁ ht rfl hread
        obtain ⟨inner, rfl, hinner, rfl⟩ := ih hread
        refine ⟨t :: inner, rfl, ?_, ?_⟩
        · rw [List.all_cons, ht, hinner]
          rfl
        · cases t <;> simp [textOf]
      cases t with
      | startElement n attrs => exact nomatch h
      | endElement n =>
          rw [readElementText] at h
          by_cases hn : n = name
          · rw [if_neg (not_not.mpr hn)] at h
            cases h
            exact ⟨[], by rw [hn]; rfl, rfl, (List.append_nil _).symm⟩
          · rw [if_pos hn] at h
            exact nomatch h
      | charData data =>
          rw [readElementText] at h
          by_cases hlong : maxS3ControlResponseBytes < text.length + data.length
          · rw [if_pos hlong] at h
            exact nomatch h
          · rw [if_neg hlong] at h
            exact hstep _ rfl (by rw [textOf, textOf, List.append_nil]) h
      | comment | procInst | directive => exact hstep text rfl (List.append_nil _).symm h

/-- The contents of a field are its transformed text, and nothing of them is written
    if the transform fails. -/
theorem rewriteField_yields (path : Bytes) (transform : TextTransform) (rest : List Token)
    (hname : name.localName ≠ []) (htags : s.encoder.tags = tags ++ [name]) :
    Yields (· = s.encoder.out)
      (fun r => ∃ inner text, rest = inner ++ .endElement name :: r.2 ∧
        inner.all (fun t => !isTag t) = true ∧
        applyResponseTextTransform c transform path (textOf inner) = .ok text ∧
        r.1 = (s.wrote tags (fieldContents text name)).record path text)
      (rewriteField c atEnd s name path transform rest) := by
  refine (s.check_yields _).bind fun ⟨raw, rest'⟩ hread => ?_
  obtain ⟨inner, hrest, hinner, hraw⟩ := readElementText_ok hread
  refine (s.check_yields _).bind fun text happly => ?_
  rw [Rewriter.encodeText_eq, Rewriter.encodeEnd_of_open (s := s.wrote _ _) hname htags, Rewriter.wrote_wrote]
  refine ⟨inner, text, hrest, hinner, ?_, rfl⟩
  rw [hraw] at happly
  exact happly

/-! ## One round -/

/-- The stack of the loop has the names of the tags the encoder has open. -/
def Rewriter.Aligned (s : Rewriter) : Prop := s.stack = s.encoder.tags.map Name.localName

/-- The start tag that is written for one of the upstream. -/
def safeStart (c : ResponseContext) (name : Name) (attrs : List Attr) : Token :=
  .startElement name (filterSafeXMLAttributes c attrs)

theorem trackOwner_stack (path : Bytes) : (s.trackOwner path).stack = s.stack := by
  rw [Rewriter.trackOwner]
  split
  · rfl
  · split <;> rfl

theorem trackOwner_encoder (path : Bytes) : (s.trackOwner path).encoder = s.encoder := by
  rw [Rewriter.trackOwner]
  split
  · rfl
  · split <;> rfl

/-- Once the start tag of a known path is written, nothing is taken back. -/
theorem rewriteKnown_yields (attrs : List Attr) (rest : List Token) (hs : s.Aligned)
    (hname : name.localName ≠ [])
    (hknown : knownResponsePath c.plan.responseProfile (pathOf s.encoder.tags name) = true) :
    Yields (· = s.encoder.out ++ [safeStart c name attrs])
      (fun r => r.1.Aligned ∧ (∃ inner, rest = inner ++ r.2 ∧
        Move c s.encoder (.startElement name attrs :: inner) r.1.encoder) ∧
        s.encoder.out ++ [safeStart c name attrs] <+: r.1.encoder.out)
      (rewriteKnown c atEnd s name attrs (pathOf s.encoder.tags name) rest) := by
  set path := pathOf s.encoder.tags name with hpath
  have hstart : (s.trackOwner path).encodeStart name (filterSafeXMLAttributes c attrs) =
      .ok ((s.trackOwner path).wrote (s.encoder.tags ++ [name]) [safeStart c name attrs]) := by
    rw [Rewriter.encodeStart, Encoder.writeStart, if_neg hname, Rewriter.wrote,
      trackOwner_encoder]
    rfl
  rw [rewriteKnown, hstart]
  set s₁ := (s.trackOwner path).wrote (s.encoder.tags ++ [name]) [safeStart c name attrs] with hs₁
  have hout : s₁.encoder.out = s.encoder.out ++ [safeStart c name attrs] := by
    rw [hs₁, Rewriter.wrote, trackOwner_encoder]
  have hstack : s₁.stack = s.stack := trackOwner_stack path
  -- what is written from here on is written after the start tag
  have hafter : ∀ (tags : List Name) (more : List Token), (s₁.wrote tags more).encoder =
      { tags := tags, out := s.encoder.out ++ safeStart c name attrs :: more } := by
    intro tags more
    rw [Rewriter.wrote, hout, List.append_assoc]
    rfl
  have hpre : ∀ more, s.encoder.out ++ [safeStart c name attrs] <+:
      s.encoder.out ++ safeStart c name attrs :: more := fun more => ⟨more, by simp⟩
  show Yields _ _ (
    if (ruleAt c path).identityContainer = true then rewriteIdentity c atEnd s₁ name rest
    else if (ruleAt c path).transform ≠ .none then
      rewriteField c atEnd s₁ name path (ruleAt c path).transform rest
    else .ok ({ s₁ with stack := s₁.stack ++ [name.localName] }, rest))
  by_cases hidentity : (ruleAt c path).identityContainer = true
  · rw [if_pos hidentity]
    refine (rewriteIdentity_yields rest hname rfl).mono (fun out h => h.trans hout) ?_
    rintro ⟨s', rest'⟩ ⟨⟨inner, hrest, hclose⟩, hs'⟩
    obtain rfl : s' = _ := hs'
    rw [hafter]
    exact ⟨hstack.trans hs, ⟨inner, hrest, .identity hknown hidentity hclose⟩, hpre _⟩
  · rw [if_neg hidentity]
    have hno : (ruleAt c path).identityContainer = false := by simpa using hidentity
    by_cases htransform : (ruleAt c path).transform = .none
    · rw [if_neg (not_not.mpr htransform)]
      have henc : s₁.encoder = { tags := s.encoder.tags ++ [name]
                                 out := s.encoder.out ++ [safeStart c name attrs] } := by
        rw [← hout]
        rfl
      refine ⟨?_, ⟨[], rfl, ?_⟩, ?_⟩
      · show s₁.stack ++ [name.localName] = (s.encoder.tags ++ [name]).map Name.localName
        rw [hstack, hs, List.map_append]
        rfl
      · show Move c s.encoder _ s₁.encoder
        rw [henc]
        exact .opened hknown ⟨hno, htransform⟩
      · show _ <+: s₁.encoder.out
        rw [hout]
    · rw [if_pos htransform]
      refine (rewriteField_yields path _ rest hname rfl).mono (fun out h => h.trans hout) ?_
      rintro ⟨s', rest'⟩ ⟨inner, text, hrest, hinner, happly, hs'⟩
      obtain rfl : s' = _ := hs'
      have henc : (Rewriter.record (s₁.wrote s.encoder.tags (fieldContents text name)) path
          text).encoder = _ := hafter s.encoder.tags (fieldContents text name)
      rw [henc]
      refine ⟨hstack.trans hs, ⟨inner ++ [.endElement name], ?_, ?_⟩, hpre _⟩
      · rw [hrest, List.append_assoc]
        rfl
      · exact .field hknown hno hinner happly

/-- What a round that fails has written. -/
def PartialRound (c : ResponseContext) (e : Encoder) (t : Token) (out : List Token) : Prop :=
  out = e.out ∨ ∃ name attrs, t = .startElement name attrs ∧
    knownResponsePath c.plan.responseProfile (pathOf e.tags name) = true ∧
    out = e.out ++ [safeStart c name attrs]

/-- The path of the source's stack is that of the open elements, as the two are kept
    aligned. -/
theorem path_eq (hs : s.Aligned) :
    join 47 (s.stack ++ [name.localName]) = pathOf s.encoder.tags name := by
  rw [hs, pathOf]

/-- **START**: a round on a start tag consumes the tokens of one element or of one
    tag, and writes as the rules of the step relation say. -/
theorem rewriteStart_yields (attrs : List Attr) (rest : List Token) (hs : s.Aligned) :
    Yields (PartialRound c s.encoder (.startElement name attrs))
      (fun r => r.1.Aligned ∧ ∃ inner, rest = inner ++ r.2 ∧
        Move c s.encoder (.startElement name attrs :: inner) r.1.encoder)
      (rewriteStart c atEnd s name attrs rest) := by
  refine Yields.bind ((s.check_yields (checkStart c s name)).mono (fun _ => .inl)
    (fun _ => id)) fun _ _ => ?_
  simp only [path_eq hs]
  split
  · next hknown =>
      by_cases hname : name.localName = []
      · rw [rewriteKnown, Rewriter.encodeStart, Encoder.writeStart, if_pos hname]
        exact .inl (congrArg Encoder.out (trackOwner_encoder _))
      · refine (rewriteKnown_yields (s := { s with seenRoot := true }) attrs rest hs hname
          hknown).mono ?_ ?_
        · rintro out rfl
          exact .inr ⟨name, attrs, rfl, hknown, rfl⟩
        · rintro r ⟨haligned, hmove, -⟩
          exact ⟨haligned, hmove⟩
  · split
    · exact .inl rfl
    · cases hskip : skip 0 rest with
      | none => exact .inl rfl
      | some rest' =>
          obtain ⟨inner, hrest, hclose⟩ := skip_closes hskip
          exact ⟨hs, inner, hrest, .skipped hclose⟩

/-- Closing an entry of a listing only checks that its owner was there. -/
theorem closeEntry_yields :
    Yields (· = s.encoder.out)
      (fun s' => s'.stack = s.stack ∧ s'.encoder = s.encoder) (closeEntry c s) := by
  rw [closeEntry]
  split
  · split
    · exact rfl
    · split
      · exact rfl
      · exact ⟨rfl, rfl⟩
  · exact ⟨rfl, rfl⟩

/-- A round on an end tag closes one element on both sides. -/
theorem rewriteEnd_yields (hs : s.Aligned) :
    Yields (· = s.encoder.out)
      (fun s' => s'.Aligned ∧ Move c s.encoder [.endElement name] s'.encoder)
      (rewriteEnd c s name) := by
  rw [rewriteEnd]
  split
  · exact rfl
  · refine closeEntry_yields.bind fun s₁ ⟨hstack, henc⟩ => ?_
    refine (Rewriter.encodeEnd_yields _ name).mono (fun out h => ?_) ?_
    · rw [h, henc]
    · rintro s' ⟨tags, htags, rfl⟩
      rw [henc] at htags
      refine ⟨?_, ?_⟩
      · show s₁.stack.dropLast = tags.map Name.localName
        rw [hstack, hs, htags, List.map_append]
        exact List.dropLast_concat
      · show Move c s.encoder _ { tags := tags, out := s₁.encoder.out ++ _ }
        rw [henc]
        exact .closed htags

/-- A round on a text copies it. -/
theorem rewriteText_yields (data : Bytes) (hs : s.Aligned) :
    Yields (· = s.encoder.out)
      (fun s' => s'.Aligned ∧ Move c s.encoder [.charData data] s'.encoder)
      (rewriteText c s data) := by
  rw [rewriteText]
  split
  · exact rfl
  · exact ⟨hs, .text⟩

/-- **ONE ROUND**: what it reads and writes when it succeeds, and what it has written when
    it fails. -/
theorem rewriteToken_yields (t : Token) (rest : List Token) (hs : s.Aligned) :
    Yields (PartialRound c s.encoder t)
      (fun r => r.1.Aligned ∧ ∃ inner, rest = inner ++ r.2 ∧
        Move c s.encoder (t :: inner) r.1.encoder)
      (rewriteToken c atEnd s rest t) := by
  cases t with
  | startElement name attrs => exact rewriteStart_yields attrs rest hs
  | endElement name =>
      refine ((rewriteEnd_yields hs).mono (fun _ => .inl) ?_).map
      rintro s' ⟨haligned, hmove⟩
      exact ⟨haligned, [], rfl, hmove⟩
  | charData data =>
      refine ((rewriteText_yields data hs).mono (fun _ => .inl) ?_).map
      rintro s' ⟨haligned, hmove⟩
      exact ⟨haligned, [], rfl, hmove⟩
  | comment | procInst | directive => exact ⟨hs, [], rfl, .dropped rfl⟩

end

end S3
