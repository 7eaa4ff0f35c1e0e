import VBuckets.ListingProofs
import VBuckets.TokenProofs

/-! # Virtual documents

    Rewriting a response document undoes what forwarding did to the request.  `V` is the
    document a client should see and `D` the one its origin sends: the same elements in the
    same order, with the real bucket for the virtual one, the prefix before every key, the
    identifiers of the origin for tokens, and identities of its own.  `DocumentRealizes` relates
    the two, rule by rule; both have the one function `tokens`.

    The proof follows the document.  `Reads` says what the loop makes of some tokens whatever
    comes after them, so that a document is read leaf by leaf, and the variables of the loop
    are those of the fields read so far (`Rewriter.after`). -/

namespace S3

open ByteString Url Http Mapping Xml

/-! ## Documents -/

/-- A child of the root or of an entry: blank text, a field, or an identity. -/
inductive Leaf where
  | space (data : Bytes)
  | field (name : Bytes) (attrs : List Attr) (text : Bytes)
  | identity (name : Bytes) (attrs : List Attr) (contents : List Token)

/-- A child of the root; a group is an entry, such as an object or a common prefix. -/
inductive Item where
  | leaf (leaf : Leaf)
  | group (name : Bytes) (attrs : List Attr) (leaves : List Leaf)

/-- A response document: a root with items, all in one namespace. -/
structure Document where
  space : Bytes
  root : Bytes
  attrs : List Attr
  items : List Item

/-- A decoder yields no token for no text. -/
def textTokens (text : Bytes) : List Token := if text = [] then [] else [.charData text]

/-- The tokens of an element. -/
def elementTokens (name : Name) (attrs : List Attr) (inner : List Token) : List Token :=
  .startElement name attrs :: (inner ++ [.endElement name])

/-- The tokens of an element with a text, or of an identity with whatever it contains. -/
def Leaf.tokens (space : Bytes) : Leaf → List Token
  | .space data => [.charData data]
  | .field name attrs text => elementTokens ⟨space, name⟩ attrs (textTokens text)
  | .identity name attrs contents => elementTokens ⟨space, name⟩ attrs contents

/-- The tokens of an item; a group is an element of leaves. -/
def Item.tokens (space : Bytes) : Item → List Token
  | .leaf child => child.tokens space
  | .group name attrs leaves =>
      elementTokens ⟨space, name⟩ attrs (leaves.flatMap (Leaf.tokens space))

/-- The tokens of a document, as the decoder delivers them. -/
def Document.tokens (doc : Document) : List Token :=
  elementTokens ⟨doc.space, doc.root⟩ doc.attrs (doc.items.flatMap (Item.tokens doc.space))

/-- Tokens without the attributes of their tags and without empty texts. -/
def shape (ts : List Token) : List Token :=
  ts.filterMap (fun
    | .startElement name _ => some (.startElement name [])
    | .charData [] => none
    | t => some t)

/-- Tokens that end no element they did not begin, and begin none they do not end. -/
def balanced : Nat → List Token → Bool
  | depth, [] => depth == 0
  | depth, .startElement _ _ :: ts => balanced (depth + 1) ts
  | 0, .endElement _ :: _ => false
  | depth + 1, .endElement _ :: ts => balanced depth ts
  | depth, _ :: ts => balanced depth ts

/-! ## Virtual texts and those of the origin -/

section
variable (c : ResponseContext)

/-- A token a client holds, and the identifier it stands for. -/
def StandsFor (kind : TokenKind) (token identifier : Bytes) : Prop :=
  identifier ≠ [] ∧ decodeOpaqueToken c.crypto c.cfg kind token = .ok identifier

/-- What a key of a document may be: in a listing a valid key, or empty where no object is
    named; elsewhere the key of the request. -/
def KeyRealizes (path text origin : Bytes) : Prop :=
  if c.plan.responseProfile.listsKeys = true then
    (text = [] ∧ origin = [] ∧ actualObjectKey path = false) ∨
      (text ≠ [] ∧ validateVirtualObjectKey text = .ok () ∧ origin = c.pathPrefix ++ text)
  else text = c.plan.objectKey ∧ origin = c.pathPrefix ++ text

/-- A number that echoes the request, or the default where it has none. -/
def NumberEchoes (path text : Bytes) : Prop :=
  ∃ queryKey defaultValue value, numericEchoParameter path = some (queryKey, defaultValue) ∧
    atoi (trimSpace text) = some value ∧ 0 ≤ value ∧
    match c.plan.query.lookup queryKey with
    | some requested => atoi (requested.headD []) = some value
    | none => value = defaultValue

/-- The text of a virtual document under a path, and the one its origin has there. -/
def TextRealizes (path text origin : Bytes) : TextTransform → Prop
  | .none => origin = text
  | .virtualBucket => text = c.plan.bucket ∧ origin = c.cfg.realBucket
  | .virtualKey => KeyRealizes c path text origin
  | .virtualLocation => text = c.virtualLocation ∧ trimSpace origin ≠ []
  | .newContinuationToken =>
      (text = [] ∧ origin = [] ∧ path = ascii "ListBucketResult/NextContinuationToken") ∨
        StandsFor c .continuation text origin
  | .echoContinuationToken =>
      text = c.plan.query.get (ascii "continuation-token") ∧
        ((text = [] ∧ origin = [] ∧ path = ascii "ListBucketResult/ContinuationToken") ∨
          (text ≠ [] ∧ decodeOpaqueToken c.crypto c.cfg .continuation text = .ok origin))
  | .newUploadToken =>
      (text = [] ∧ origin = [] ∧ path = ascii "ListMultipartUploadsResult/NextUploadIdMarker") ∨
        StandsFor c .upload text origin
  | .echoUploadToken =>
      text = requestedUpload c ∧
        ((text = [] ∧ origin = [] ∧ path = ascii "ListMultipartUploadsResult/UploadIdMarker") ∨
          (text ≠ [] ∧ decodeOpaqueToken c.crypto c.cfg .upload text = .ok origin))
  | .virtualKeyEcho =>
      ∃ queryKey, keyEchoParameter path = some queryKey ∧ text = c.plan.query.get queryKey ∧
        origin =
          if queryKey = ascii "prefix" ∨ text ≠ [] then c.pathPrefix ++ text else text
  | .plainQueryEcho =>
      origin = text ∧ ∃ queryKey, plainEchoParameter path = some queryKey ∧
        text = c.plan.query.get queryKey
  | .numericQueryEcho => origin = text ∧ NumberEchoes c path text
  | .nonNegativeInteger => origin = text ∧ ∃ value, atoi (trimSpace text) = some value ∧ 0 ≤ value
  | .boolean => origin = text ∧ (text = ascii "true" ∨ text = ascii "false")
  | .requiredNonempty => origin = text ∧ trimSpace text ≠ []

/-- A path of the schema that holds text. -/
def scalarPath (profile : ResponseProfile) (path : Bytes) : Bool :=
  let rule := (responseFieldRuleForPath profile path).getD {}
  knownResponsePath profile path && !rule.identityContainer &&
    (rule.transform != .none || !responsePathIsContainer profile path)

/-- A path of the schema whose contents are replaced. -/
def identityPath (profile : ResponseProfile) (path : Bytes) : Bool :=
  ((responseFieldRuleForPath profile path).getD {}).identityContainer

/-- A path of the schema that holds further elements. -/
def groupPath (profile : ResponseProfile) (path : Bytes) : Bool :=
  knownResponsePath profile path && (responseFieldRuleForPath profile path).isNone &&
    responsePathIsContainer profile path

/-- The leaf of a virtual document and that of its origin, below open elements. -/
inductive LeafRealizes (stack : List Bytes) : Leaf → Leaf → Prop
  | space {data : Bytes} (hblank : trimSpace data = []) :
      LeafRealizes stack (.space data) (.space data)
  | field {name text origin : Bytes} {attrs attrs' : List Attr} (hname : name ≠ [])
      (hscalar : scalarPath c.plan.responseProfile (join 47 (stack ++ [name])) = true)
      (htext : TextRealizes c (join 47 (stack ++ [name])) text origin
        (ruleAt c (join 47 (stack ++ [name]))).transform) :
      LeafRealizes stack (.field name attrs text) (.field name attrs' origin)
  | identity {name : Bytes} {attrs attrs' : List Attr} {contents : List Token} (hname : name ≠ [])
      (hidentity : identityPath c.plan.responseProfile (join 47 (stack ++ [name])) = true)
      (hbalanced : balanced 0 contents = true) :
      LeafRealizes stack
        (.identity name attrs (identityFields.flatMap (identityField c.plan.bucket)))
        (.identity name attrs' contents)

/-- Whether a leaf is the owner of an object. -/
def Leaf.isOwner (stack : List Bytes) : Leaf → Bool
  | .identity name _ _ => join 47 (stack ++ [name]) == ascii "ListBucketResult/Contents/Owner"
  | _ => false

/-- What an item that a client sees stands for: a leaf for a leaf, a group for a group
    with as many leaves.  Where owners were asked for, an object has one. -/
inductive ItemRealizes (root : Bytes) : Item → Item → Prop
  | leaf {v d : Leaf} (h : LeafRealizes c [root] v d) : ItemRealizes root (.leaf v) (.leaf d)
  | group {name : Bytes} {attrs attrs' : List Attr} {vs ds : List Leaf} (hname : name ≠ [])
      (hgroup : groupPath c.plan.responseProfile (join 47 [root, name]) = true)
      (hleaves : List.Forall₂ (LeafRealizes c [root, name]) vs ds)
      (howner : c.plan.query.get (ascii "fetch-owner") = ascii "true" →
        join 47 [root, name] = ascii "ListBucketResult/Contents" →
          vs.any (Leaf.isOwner [root, name]) = true) :
      ItemRealizes root (.group name attrs vs) (.group name attrs' ds)

/-- The fields of a leaf that the loop remembers. -/
def Leaf.fields (stack : List Bytes) : Leaf → List (Bytes × Bytes)
  | .field name _ text =>
      if (ruleAt c (join 47 (stack ++ [name]))).transform = .none then []
      else [(join 47 (stack ++ [name]), text)]
  | _ => []

/-- The fields of an item that the loop remembers. -/
def Item.fields (root : Bytes) : Item → List (Bytes × Bytes)
  | .leaf child => child.fields c [root]
  | .group name _ leaves => leaves.flatMap (Leaf.fields c [root, name])

/-- And of the document. -/
def Document.fields (doc : Document) : List (Bytes × Bytes) :=
  doc.items.flatMap (Item.fields c doc.root)

/-- The texts that are read as a whole have at most a mebibyte. -/
def Leaf.Bounded (stack : List Bytes) (leaf : Leaf) : Prop :=
  ∀ f ∈ leaf.fields c stack, f.2.length ≤ maxS3ControlResponseBytes

/-- The texts of an item are short enough to be read as a whole. -/
def Item.Bounded (root : Bytes) : Item → Prop
  | .leaf child => child.Bounded c [root]
  | .group name _ leaves => ∀ child ∈ leaves, child.Bounded c [root, name]

/-- And so are those of the document. -/
def Document.Bounded (doc : Document) : Prop := ∀ item ∈ doc.items, item.Bounded c doc.root

/-- The fields of a whole document: what its schema requires is there, and a next marker
    where there is more. -/
structure Complete (fields : List (Bytes × Bytes)) : Prop where
  required : ∀ e ∈ responseFieldRules c.plan.responseProfile, e.2.required = true →
    e.1 ∈ fields.map Prod.fst
  nextPart : ∀ text, (ascii "ListPartsResult/IsTruncated", text) ∈ fields →
    text ≠ ascii "false" → ascii "ListPartsResult/NextPartNumberMarker" ∈ fields.map Prod.fst
  nextToken : (ascii "ListBucketResult/NextContinuationToken", []) ∈ fields →
    ascii "ListBucketResult/IsTruncated" ∈ fields.map Prod.fst ∧
      ∀ text, (ascii "ListBucketResult/IsTruncated", text) ∈ fields → text = ascii "false"
  nextUpload : (ascii "ListMultipartUploadsResult/NextUploadIdMarker", []) ∈ fields →
    ascii "ListMultipartUploadsResult/IsTruncated" ∈ fields.map Prod.fst ∧
      ∀ text, (ascii "ListMultipartUploadsResult/IsTruncated", text) ∈ fields →
        text = ascii "false"

/-- A virtual document and the one its origin sends. -/
structure DocumentRealizes (V D : Document) : Prop where
  root : V.root = expectedResponseRoot c.plan.responseProfile ∧ V.root ≠ [] ∧ D.root = V.root
  space : (V.space = [] ∨ V.space = s3XMLNamespace) ∧ D.space = V.space
  items : List.Forall₂ (ItemRealizes c V.root) V.items D.items
  complete : Complete c (V.fields c)

end

/-! ## Each rule undoes its realization -/

theorem trimSpace_bucket {bucket : Bytes} (h : isValidBucketName bucket = true) :
    trimSpace bucket = bucket := by
  simp only [isValidBucketName, Bool.and_eq_true] at h
  refine (NoSpace.of_ascii (fun a ha => ?_)).trimSpace_eq
  exact forall_byte (P := fun a => isBucketByte a = true → a < 0x80 ∧ isASCIISpace a = false)
    (by decide +kernel) a (List.all_eq_true.mp h.1.1.1.1.1.2 a ha)

section
variable {c : ResponseContext} {path text origin : Bytes}

/-- What the tables say, schema by schema: which documents echo keys and which of their keys
    no client addresses; that texts are neither entries nor owners, and owners no entries;
    and that the root is in its schema and has no rule. -/
theorem schema_tables (profile : ResponseProfile) :
    (∀ e ∈ responseFieldRules profile,
      (e.2.transform = .virtualKeyEcho →
        profile.listsKeys = true ∧ addressableKeyValue e.1 = false) ∧
      (e.2.transform = .virtualKey → profile.listsKeys = false →
        addressableKeyValue e.1 = false)) ∧
    (scalarPath profile (ascii "ListBucketResult/Contents") = false ∧
      scalarPath profile (ascii "ListBucketResult/Contents/Owner") = false ∧
      groupPath profile (ascii "ListBucketResult/Contents/Owner") = false ∧
      identityPath profile (ascii "ListBucketResult/Contents") = false) ∧
    knownResponsePath profile (expectedResponseRoot profile) = true ∧
      responseFieldRuleForPath profile (expectedResponseRoot profile) = none ∧
      expectedResponseRoot profile ≠ ascii "ListBucketResult/Contents" ∧
      expectedResponseRoot profile ≠ ascii "ListBucketResult/Contents/Owner" := by
  unfold scalarPath groupPath identityPath knownResponsePath responsePathIsContainer
    responseFieldRuleForPath addressableKeyValue actualObjectKey knownResponsePaths
    responseFieldRules expectedResponseRoot
  cases profile <;>
  · simp only [responsePathSet, List.map_cons, List.map_nil, ascii_append]
    repeat rw [ascii_ofList]
    decide +kernel

/-- Where no client addresses anything, any key is accepted. -/
theorem validateAddressableKey_other (h : addressableKeyValue path = false) (k : Bytes) :
    validateAddressableKey path k = .ok () := by
  rw [validateAddressableKey, h]
  rfl

theorem decodeListed_plain (hurl : urlEncoded c = false) (text : Bytes) :
    decodeListed c text = some text := by
  rw [decodeListed, hurl]
  rfl

theorem shownKey_plain (hurl : urlEncoded c = false) (k : Bytes) : shownKey c k = k := by
  rw [shownKey, hurl]
  rfl

/-- Outside listings a key is the one of the request. -/
theorem virtualizeResponseKey_request (hurl : urlEncoded c = false)
    (hlist : c.plan.responseProfile.listsKeys = false)
    (haddress : addressableKeyValue path = false) :
    virtualizeResponseKey c path (c.pathPrefix ++ c.plan.objectKey) = .ok c.plan.objectKey := by
  have hdecoded := decodeListed_plain hurl (c.pathPrefix ++ c.plan.objectKey)
  have hfinish : (do
      validateAddressableKey path (trimPrefix (c.pathPrefix ++ c.plan.objectKey) c.pathPrefix)
      .ok (stripListPathPrefix (c.pathPrefix ++ c.plan.objectKey) c.pathPrefix (urlEncoded c)) :
        Except Reason Bytes) = .ok c.plan.objectKey := by
    rw [validateAddressableKey_other haddress, stripListPathPrefix_eq hdecoded,
      shownKey_plain hurl]
    rfl
  rw [virtualizeResponseKey, hdecoded]
  simp only [hfinish]
  revert hlist
  cases c.plan.responseProfile with
  | listObjects | listMultipartUploads => exact fun hlist => by cases hlist
  | createMultipart | listParts | completeMultipart => exact fun _ => if_neg (not_not.mpr rfl)
  | _ => exact fun _ => rfl

/-- A key that is realized by the origin's is what the rewriter makes of it. -/
theorem virtualizeResponseKey_realizes (hurl : urlEncoded c = false)
    (hrule : (ruleAt c path).transform = .virtualKey) (h : KeyRealizes c path text origin) :
    virtualizeResponseKey c path origin = .ok text := by
  have hmem : (path, ruleAt c path) ∈ responseFieldRules c.plan.responseProfile :=
    ruleAt_mem fun he => by rw [he] at hrule; cases hrule
  rw [KeyRealizes] at h
  cases hlist : c.plan.responseProfile.listsKeys with
  | false =>
      rw [hlist, if_neg (by decide)] at h
      obtain ⟨rfl, rfl⟩ := h
      exact virtualizeResponseKey_request hurl hlist (((schema_tables _).1 _ hmem).2 hrule hlist)
  | true =>
      rw [hlist, if_pos rfl] at h
      rcases h with ⟨rfl, rfl, -⟩ | ⟨hne, hvalid, rfl⟩
      · exact virtualizeResponseKey_nil hlist (decodeListed_plain hurl _)
      · have haddress : validateAddressableKey path text = .ok () := by
          cases hpath : addressableKeyValue path with
          | false => exact validateAddressableKey_other hpath text
          | true => exact (validateAddressableKey_ok_iff hpath).mpr (.inr ⟨hne, hvalid⟩)
        rw [virtualizeResponseKey_of hlist (decodeListed_plain hurl _) haddress,
          shownKey_plain hurl]

/-- The echo of a key the request has. -/
theorem virtualKeyEcho_realizes (hurl : urlEncoded c = false)
    (hrule : (ruleAt c path).transform = .virtualKeyEcho)
    (h : TextRealizes c path text origin .virtualKeyEcho) :
    validateVirtualKeyEcho c path origin = .ok () ∧
      virtualizeResponseKey c path origin = .ok text := by
  have hmem : (path, ruleAt c path) ∈ responseFieldRules c.plan.responseProfile :=
    ruleAt_mem fun he => by rw [he] at hrule; cases hrule
  obtain ⟨hlist, haddress⟩ := ((schema_tables _).1 _ hmem).1 hrule
  obtain ⟨queryKey, hkey, rfl, rfl⟩ := h
  refine ⟨?_, ?_⟩
  · rw [validateVirtualKeyEcho, hkey]
    simp only [decodeListed_plain hurl]
    rw [refuseIf_ok_iff, bne_eq_false_iff_eq]
  · by_cases hprefixed : queryKey = ascii "prefix" ∨ c.plan.query.get queryKey ≠ []
    · rw [if_pos hprefixed, virtualizeResponseKey_of hlist (decodeListed_plain hurl _)
        (validateAddressableKey_other haddress _), shownKey_plain hurl]
    · rw [if_neg hprefixed]
      rw [not_or, not_not] at hprefixed
      rw [hprefixed.2]
      exact virtualizeResponseKey_nil hlist (decodeListed_plain hurl _)

/-- A token is the one its identifier is shown as. -/
theorem newToken_realizes (hlaw : c.crypto.Opens) {cipher : OpaqueTokenCipher}
    (hc : routingTokenCipher c.crypto c.cfg = .ok cipher) {kind : TokenKind} {emptyPath : Bytes}
    (h : (text = [] ∧ origin = [] ∧ path = emptyPath) ∨ StandsFor c kind text origin) :
    newToken c kind emptyPath path origin = .ok text := by
  rw [newToken]
  rcases h with ⟨rfl, rfl, hpath⟩ | ⟨hne, hdecode⟩
  · rw [if_pos ⟨rfl, hpath⟩]
  · rw [if_neg (fun h => hne h.1), encodeOpaqueToken_eq hc hne,
      ← (decodeOpaqueToken_iff_tokenOf hlaw hc).mp hdecode]
    rfl

/-- The token of the request is shown again, if the origin repeats the identifier it
    stands for. -/
theorem echoToken_realizes {kind : TokenKind} {noun : String} {emptyPath : Bytes}
    (h : (text = [] ∧ origin = [] ∧ path = emptyPath) ∨
      (text ≠ [] ∧ decodeOpaqueToken c.crypto c.cfg kind text = .ok origin)) :
    echoToken c kind noun text emptyPath path origin = .ok text := by
  rw [echoToken]
  rcases h with ⟨rfl, rfl, hpath⟩ | ⟨hne, hdecode⟩
  · rw [if_pos rfl, if_pos ⟨rfl, hpath⟩]
  · rw [if_neg hne, if_pos hdecode]

/-- A number that is repeated passes. -/
theorem numberEchoes_ok (h : NumberEchoes c path text) :
    validateNumericQueryEcho c path text = .ok () := by
  obtain ⟨queryKey, defaultValue, value, hpath, hvalue, hpos, hecho⟩ := h
  rw [validateNumericQueryEcho, hpath]
  simp only [hvalue]
  rw [if_neg (by omega)]
  cases hlookup : c.plan.query.lookup queryKey with
  | some requested =>
      rw [hlookup] at hecho
      simp only
      rw [refuseIf_ok_iff, bne_eq_false_iff_eq]
      exact hecho
  | none =>
      rw [hlookup] at hecho
      simp only
      rw [refuseIf_ok_iff, show value = defaultValue from hecho]
      simp

/-- **EACH RULE UNDOES ITS REALIZATION.** -/
theorem applyResponseTextTransform_realizes (hlaw : c.crypto.Opens)
    (hbucket : isValidBucketName c.cfg.realBucket = true) {cipher : OpaqueTokenCipher}
    (hc : routingTokenCipher c.crypto c.cfg = .ok cipher) (hurl : urlEncoded c = false)
    (h : TextRealizes c path text origin (ruleAt c path).transform) :
    applyResponseTextTransform c (ruleAt c path).transform path origin = .ok text := by
  cases hrule : (ruleAt c path).transform with
  | none =>
      rw [hrule] at h
      exact congrArg Except.ok h
  | virtualBucket =>
      rw [hrule] at h
      obtain ⟨rfl, rfl⟩ := h
      rw [applyResponseTextTransform, trimSpace_bucket hbucket, if_neg (not_not.mpr rfl)]
  | virtualKey =>
      rw [hrule] at h
      exact virtualizeResponseKey_realizes hurl hrule h
  | virtualLocation =>
      rw [hrule] at h
      rw [applyResponseTextTransform, if_neg h.2, h.1]
  | newContinuationToken =>
      rw [hrule] at h
      exact newToken_realizes hlaw hc h
  | echoContinuationToken | echoUploadToken =>
      rw [hrule] at h
      obtain ⟨rfl, h⟩ := h
      exact echoToken_realizes h
  | newUploadToken =>
      rw [hrule] at h
      exact newToken_realizes hlaw hc h
  | virtualKeyEcho =>
      rw [hrule] at h
      exact seq_ok_iff.mpr (virtualKeyEcho_realizes hurl hrule h)
  | plainQueryEcho =>
      rw [hrule] at h
      obtain ⟨rfl, queryKey, hkey, htext⟩ := h
      refine seq_ok_iff.mpr ⟨?_, rfl⟩
      rw [validatePlainQueryEcho, hkey]
      simp only [decodeListed_plain hurl, ite_self]
      rw [refuseIf_ok_iff, bne_eq_false_iff_eq]
      exact htext
  | numericQueryEcho =>
      rw [hrule] at h
      obtain ⟨rfl, h⟩ := h
      exact seq_ok_iff.mpr ⟨numberEchoes_ok h, rfl⟩
  | nonNegativeInteger =>
      rw [hrule] at h
      obtain ⟨rfl, value, hvalue, hpos⟩ := h
      rw [applyResponseTextTransform, hvalue]
      exact if_neg (by omega)
  | boolean =>
      rw [hrule] at h
      obtain ⟨rfl, rfl | rfl⟩ := h
      · rfl
      · rfl
  | requiredNonempty =>
      rw [hrule] at h
      obtain ⟨rfl, h⟩ := h
      rw [applyResponseTextTransform, if_neg h]

end

/-! ## Reading part of a document -/

section
variable (c : ResponseContext)

/-- The error of a decoder at the end of a text. -/
def atEOF : Reason := { format := "EOF" }

/-- The loop reads some tokens whatever comes after them, and has a round left for each of
    those. -/
def Reads (s : Rewriter) (ts : List Token) (s' : Rewriter) : Prop :=
  ∀ rest rounds, (ts ++ rest).length ≤ rounds → ∃ rounds', rest.length ≤ rounds' ∧
    rewriteLoop c none rounds s (ts ++ rest) = rewriteLoop c none rounds' s' rest

end

section
variable {c : ResponseContext} {s s' s'' : Rewriter} {ts us : List Token} {t : Token}

theorem Reads.refl : Reads c s [] s := fun _ rounds h => ⟨rounds, h, rfl⟩

/-- Parts of a document may be read one after the other. -/
theorem Reads.append (h : Reads c s ts s') (h' : Reads c s' us s'') :
    Reads c s (ts ++ us) s'' := by
  intro rest rounds hrounds
  rw [List.append_assoc] at hrounds ⊢
  obtain ⟨rounds', hrounds', hrun⟩ := h (us ++ rest) rounds hrounds
  obtain ⟨rounds'', hrounds'', hrun'⟩ := h' rest rounds' hrounds'
  exact ⟨rounds'', hrounds'', hrun.trans hrun'⟩

/-- One round. -/
theorem Reads.round (h : ∀ rest, rewriteToken c atEOF s (ts ++ rest) t = .ok (s', rest)) :
    Reads c s (t :: ts) s' := by
  intro rest rounds hrounds
  cases rounds with
  | zero => exact absurd hrounds (by simp)
  | succ rounds =>
      refine ⟨rounds, by simp only [List.cons_append, List.length_cons, List.length_append] at hrounds; omega, ?_⟩
      show (rewriteToken c atEOF s (ts ++ rest) t >>= _) = _
      rw [h rest]
      rfl

/-- The variables after some fields were read, and what was written with them. -/
def Rewriter.after (s : Rewriter) (fields : List (Bytes × Bytes)) (owners : List Bool)
    (more : List Token) : Rewriter :=
  { fields.foldl (fun s f => s.record f.1 f.2) s with
    listContentsOwnerSeen := owners
    encoder := { tags := s.encoder.tags, out := s.encoder.out ++ more } }

/-- Recording a field touches neither what is open, nor the owners, nor the encoder. -/
theorem foldl_record (fields : List (Bytes × Bytes)) (s : Rewriter) (stack : List Bytes)
    (owners : List Bool) (encoder : Encoder) :
    fields.foldl (fun s f => s.record f.1 f.2)
        { s with stack := stack, listContentsOwnerSeen := owners, encoder := encoder } =
      { fields.foldl (fun s f => s.record f.1 f.2) s with
        stack := stack
        listContentsOwnerSeen := owners
        encoder := encoder } := by
  induction fields generalizing s with
  | nil => rfl
  | cons f fields ih => exact ih (s.record f.1 f.2)

theorem foldl_record_stack (fields : List (Bytes × Bytes)) (s : Rewriter) :
    (fields.foldl (fun s f => s.record f.1 f.2) s).stack = s.stack ∧
      (fields.foldl (fun s f => s.record f.1 f.2) s).seenRoot = s.seenRoot := by
  induction fields generalizing s with
  | nil => exact ⟨rfl, rfl⟩
  | cons f fields ih => exact ih (s.record f.1 f.2)

/-- Two parts leave their fields, their owners and their output one after the other. -/
theorem after_after (fields fields' : List (Bytes × Bytes)) (owners owners' : List Bool)
    (more more' : List Token) :
    (s.after fields owners more).after fields' owners' more' =
      s.after (fields ++ fields') owners' (more ++ more') := by
  have hfold := foldl_record fields' (fields.foldl (fun s f => s.record f.1 f.2) s)
    (fields.foldl (fun s f => s.record f.1 f.2) s).stack owners
    { tags := s.encoder.tags, out := s.encoder.out ++ more }
  have hstack := (foldl_record_stack fields' (fields.foldl (fun s f => s.record f.1 f.2) s)).1
  rw [Rewriter.after, Rewriter.after, Rewriter.after, List.foldl_append, hfold, ← hstack,
    List.append_assoc]

/-- Where the loop stands: which elements are open. -/
structure Rewriter.At (s : Rewriter) (stack : List Bytes) : Prop where
  stack : s.stack = stack
  aligned : s.Aligned
  seenRoot : s.seenRoot = true

theorem Rewriter.At.after {stack : List Bytes} (h : s.At stack) (fields : List (Bytes × Bytes))
    (owners : List Bool) (more : List Token) : (s.after fields owners more).At stack := by
  obtain ⟨hstack, hroot⟩ := foldl_record_stack fields s
  refine ⟨hstack.trans h.stack, ?_, hroot.trans h.seenRoot⟩
  exact hstack.trans h.aligned

/-! ## Tags -/

variable {stack : List Bytes} {name : Name} {attrs : List Attr}

/-- A start tag of the schema below open elements. -/
theorem rewriteStart_known (hs : s.At stack) (hopen : stack ≠ [])
    (hspace : name.space = [] ∨ name.space = s3XMLNamespace)
    (hknown : knownResponsePath c.plan.responseProfile (join 47 (stack ++ [name.localName])) = true)
    (rest : List Token) :
    rewriteStart c atEOF s name attrs rest =
      rewriteKnown c atEOF s name attrs (join 47 (stack ++ [name.localName])) rest := by
  have hcheck : checkStart c s name = .ok () := by
    rw [checkStart, hs.seenRoot, hs.stack]
    refine seq_ok_iff.mpr ⟨?_, seq_ok_iff.mpr ⟨?_, ?_⟩⟩
    · rw [refuseIf_ok_iff, Bool.true_and, List.isEmpty_eq_false_iff]
      exact hopen
    · rw [refuseIf_ok_iff]
      rcases hspace with hspace | hspace <;> simp [hspace]
    · rfl
  have hsame : { s with seenRoot := true } = s := by
    cases s
    simp only [Rewriter.mk.injEq, true_and, and_true]
    exact hs.seenRoot.symm
  rw [rewriteStart, hcheck]
  show (if _ then _ else _) = _
  rw [hsame, hs.stack, if_pos hknown]

theorem encodeStart_eq (hname : name.localName ≠ []) :
    s.encodeStart name attrs =
      .ok (s.wrote (s.encoder.tags ++ [name]) [.startElement name attrs]) := by
  rw [Rewriter.encodeStart, Encoder.writeStart, if_neg hname]
  rfl

/-- Paths whose tags change nothing of the owners. -/
theorem trackOwner_other {path : Bytes} (hentry : path ≠ ascii "ListBucketResult/Contents")
    (howner : path ≠ ascii "ListBucketResult/Contents/Owner") : s.trackOwner path = s := by
  rw [Rewriter.trackOwner, if_neg hentry, if_neg (fun h => howner h.1)]

/-- A text that is not too long is read as a whole. -/
theorem readElementText_text {text : Bytes} (hsize : text.length ≤ maxS3ControlResponseBytes)
    (rest : List Token) :
    readElementText atEOF name [] ((textTokens text ++ [.endElement name]) ++ rest) =
      .ok (text, rest) := by
  by_cases htext : text = []
  · rw [textTokens, if_pos htext, htext]
    show (if _ then _ else _) = _
    rw [if_neg (not_not.mpr rfl)]
    rfl
  · rw [textTokens, if_neg htext]
    show (if maxS3ControlResponseBytes < ([] : Bytes).length + text.length then _ else _) = _
    rw [if_neg (by simpa using hsize)]
    show (if _ then _ else _) = _
    rw [if_neg (not_not.mpr rfl)]
    rfl

/-- The start tag of a field with a rule: the tag is written, then the text is read. -/
theorem rewriteStart_field (hs : s.At stack) (hopen : stack ≠ [])
    (hspace : name.space = [] ∨ name.space = s3XMLNamespace) (hname : name.localName ≠ [])
    (hscalar : scalarPath c.plan.responseProfile (join 47 (stack ++ [name.localName])) = true)
    (hrule : (ruleAt c (join 47 (stack ++ [name.localName]))).transform ≠ .none)
    (htrack : s.trackOwner (join 47 (stack ++ [name.localName])) = s) (rest : List Token) :
    rewriteStart c atEOF s name attrs rest =
      rewriteField c atEOF (s.wrote (s.encoder.tags ++ [name])
          [.startElement name (filterSafeXMLAttributes c attrs)]) name
        (join 47 (stack ++ [name.localName]))
        (ruleAt c (join 47 (stack ++ [name.localName]))).transform rest := by
  simp only [scalarPath, Bool.and_eq_true, Bool.not_eq_true'] at hscalar
  obtain ⟨⟨hknown, hidentity⟩, -⟩ := hscalar
  rw [rewriteStart_known hs hopen hspace hknown, rewriteKnown, htrack, encodeStart_eq hname]
  show (if (ruleAt c _).identityContainer then _ else if (ruleAt c _).transform ≠ .none then _
    else _) = _
  rw [if_neg (by rw [ruleAt, hidentity]; decide), if_pos hrule]
  rfl

/-- **A FIELD WITH A RULE** is read as a whole. -/
theorem field_reads {text origin : Bytes} (hs : s.At stack) (hopen : stack ≠ [])
    (hspace : name.space = [] ∨ name.space = s3XMLNamespace) (hname : name.localName ≠ [])
    (hscalar : scalarPath c.plan.responseProfile (join 47 (stack ++ [name.localName])) = true)
    (hrule : (ruleAt c (join 47 (stack ++ [name.localName]))).transform ≠ .none)
    (hsize : origin.length ≤ maxS3ControlResponseBytes)
    (happly : applyResponseTextTransform c
      (ruleAt c (join 47 (stack ++ [name.localName]))).transform
      (join 47 (stack ++ [name.localName])) origin = .ok text)
    (htrack : s.trackOwner (join 47 (stack ++ [name.localName])) = s) :
    Reads c s (elementTokens name attrs (textTokens origin))
      (s.after [(join 47 (stack ++ [name.localName]), text)] s.listContentsOwnerSeen
        (elementTokens name (filterSafeXMLAttributes c attrs) [.charData text])) := by
  refine Reads.round (fun rest => ?_)
  show rewriteStart c atEOF s name attrs _ = _
  rw [rewriteStart_field hs hopen hspace hname hscalar hrule htrack, rewriteField,
    readElementText_text hsize]
  show (do
    let text ← (applyResponseTextTransform c (ruleAt c _).transform _ origin).mapError _
    let s ← (Rewriter.encodeText _ text).encodeEnd name
    .ok (s.record _ text, rest)) = _
  rw [happly]
  show (do
    let s ← (Rewriter.encodeText (s.wrote (s.encoder.tags ++ [name]) _) text).encodeEnd name
    .ok (s.record _ text, rest)) = _
  rw [Rewriter.encodeText_eq, Rewriter.wrote_wrote,
    Rewriter.encodeEnd_of_open hname (show _ = s.encoder.tags ++ [name] from rfl),
    Rewriter.wrote_wrote]
  rfl

/-- Whatever is balanced is skipped as a whole. -/
theorem skip_balanced {depth : Nat} {contents : List Token}
    (h : balanced depth contents = true) (rest : List Token) :
    skip depth ((contents ++ [.endElement name]) ++ rest) = some rest := by
  induction contents generalizing depth with
  | nil =>
      obtain rfl : depth = 0 := by simpa [balanced] using h
      rfl
  | cons t ts ih =>
      cases t with
      | startElement name attrs => exact ih (show balanced (depth + 1) ts = true from h)
      | endElement name =>
          cases depth with
          | zero => exact nomatch h
          | succ depth => exact ih (show balanced depth ts = true from h)
      | charData data | comment data | procInst target inst | directive data =>
          cases depth with
          | zero => exact ih (show balanced 0 ts = true from h)
          | succ depth => exact ih (show balanced (depth + 1) ts = true from h)

/-- **AN IDENTITY** is skipped and replaced. -/
theorem identity_reads {contents : List Token} (hs : s.At stack) (hopen : stack ≠ [])
    (hspace : name.space = [] ∨ name.space = s3XMLNamespace) (hname : name.localName ≠ [])
    (hidentity : (ruleAt c (join 47 (stack ++ [name.localName]))).identityContainer = true)
    (hbalanced : balanced 0 contents = true) :
    Reads c s (elementTokens name attrs contents)
      (s.after [] (s.trackOwner (join 47 (stack ++ [name.localName]))).listContentsOwnerSeen
        (elementTokens name (filterSafeXMLAttributes c attrs)
          (identityFields.flatMap (identityField c.plan.bucket)))) := by
  refine Reads.round (fun rest => ?_)
  have hknown : knownResponsePath c.plan.responseProfile
      (join 47 (stack ++ [name.localName])) = true := by
    have hmem := identity_mem hidentity
    rw [knownResponsePath, Bool.or_eq_true]
    right
    rw [responseFieldRuleForPath]
    cases hlookup : (responseFieldRules c.plan.responseProfile).lookup
        (join 47 (stack ++ [name.localName])) with
    | some rule => rfl
    | none => exact absurd rfl (List.lookup_eq_none_iff.mp hlookup _ hmem |> bne_iff_ne.mp)
  show rewriteStart c atEOF s name attrs _ = _
  rw [rewriteStart_known hs hopen hspace hknown, rewriteKnown, encodeStart_eq hname]
  show (if (ruleAt c _).identityContainer then _ else _) = _
  rw [if_pos hidentity, rewriteIdentity, skip_balanced hbalanced]
  simp only
  rw [encodeIdentity_eq identityFields (by decide)]
  show (do
    let s ← (Rewriter.wrote (Rewriter.wrote _ _ _) _ _).encodeEnd name
    .ok (s, rest)) = _
  rw [Rewriter.wrote_wrote, Rewriter.encodeEnd_of_open hname (show _ = _ ++ [name] from rfl),
    Rewriter.wrote_wrote]
  show Except.ok (_, rest) = Except.ok (_, rest)
  rw [Rewriter.wrote, trackOwner_encoder]
  congr 2
  unfold Rewriter.trackOwner
  split
  · rfl
  · split <;> rfl

/-! ## Elements that are passed on -/

/-- The loop inside an element whose tags are passed on. -/
def Rewriter.opened (c : ResponseContext) (s : Rewriter) (name : Name) (attrs : List Attr) :
    Rewriter :=
  { s.wrote (s.encoder.tags ++ [name])
      [.startElement name (filterSafeXMLAttributes c attrs)] with
    stack := s.stack ++ [name.localName] }

theorem Rewriter.At.opened (hs : s.At stack) :
    (s.opened c name attrs).At (stack ++ [name.localName]) := by
  refine ⟨?_, ?_, hs.seenRoot⟩
  · show s.stack ++ [name.localName] = _
    rw [hs.stack]
  · show s.stack ++ [name.localName] = (s.encoder.tags ++ [name]).map Name.localName
    rw [List.map_append, show s.stack = _ from hs.aligned]
    rfl

/-- The start tag of a group is written and opened. -/
theorem start_reads (hs : s.At stack) (hopen : stack ≠ [])
    (hspace : name.space = [] ∨ name.space = s3XMLNamespace) (hname : name.localName ≠ [])
    (hknown : knownResponsePath c.plan.responseProfile (join 47 (stack ++ [name.localName])) = true)
    (hidentity : (ruleAt c (join 47 (stack ++ [name.localName]))).identityContainer = false)
    (hrule : (ruleAt c (join 47 (stack ++ [name.localName]))).transform = .none) :
    Reads c s [.startElement name attrs]
      ((s.trackOwner (join 47 (stack ++ [name.localName]))).opened c name attrs) := by
  refine Reads.round (fun rest => ?_)
  show rewriteStart c atEOF s name attrs _ = _
  rw [rewriteStart_known hs hopen hspace hknown, rewriteKnown, encodeStart_eq hname]
  show (if (ruleAt c _).identityContainer then _ else if (ruleAt c _).transform ≠ .none then _
    else _) = _
  rw [if_neg (by rw [hidentity]; decide), if_neg (not_not.mpr hrule)]
  rfl

theorem opened_after (fields : List (Bytes × Bytes)) (owners : List Bool) (more : List Token) :
    (s.opened c name attrs).after fields owners more =
      { fields.foldl (fun s f => s.record f.1 f.2) s with
        stack := s.stack ++ [name.localName]
        listContentsOwnerSeen := owners
        encoder :=
          { tags := s.encoder.tags ++ [name]
            out := (s.encoder.out ++ [.startElement name (filterSafeXMLAttributes c attrs)]) ++
              more } } := by
  have hfold := foldl_record fields s (s.stack ++ [name.localName]) s.listContentsOwnerSeen
    { tags := s.encoder.tags ++ [name]
      out := s.encoder.out ++ [.startElement name (filterSafeXMLAttributes c attrs)] }
  have hrecorded : fields.foldl (fun s f => s.record f.1 f.2) (s.opened c name attrs) = _ := hfold
  rw [Rewriter.after, hrecorded]
  rfl

/-- The end of an element that was passed on, with the owners that remain. -/
theorem end_reads {fields : List (Bytes × Bytes)} {owners owners' : List Bool}
    {more : List Token} (hname : name.localName ≠ [])
    (hclose : closeEntry c ((s.opened c name attrs).after fields owners more) =
      .ok { (s.opened c name attrs).after fields owners more with
        listContentsOwnerSeen := owners' }) :
    Reads c ((s.opened c name attrs).after fields owners more) [.endElement name]
      (s.after fields owners'
        (elementTokens name (filterSafeXMLAttributes c attrs) more)) := by
  refine Reads.round (fun rest => ?_)
  rw [opened_after] at hclose ⊢
  show (rewriteEnd c _ name).map _ = _
  rw [rewriteEnd, if_neg (by simp), hclose]
  show Except.map _ (Rewriter.encodeEnd _ name) = _
  rw [Rewriter.encodeEnd_of_open hname (show _ = s.encoder.tags ++ [name] from rfl)]
  show Except.ok (_, rest) = Except.ok (_, rest)
  rw [Rewriter.wrote, Rewriter.after]
  simp only [List.dropLast_concat, elementTokens, List.append_assoc, List.cons_append,
    ← (foldl_record_stack fields s).1]
  rfl

/-- Only entries of a listing are checked at their end. -/
theorem closeEntry_other (h : s.path ≠ ascii "ListBucketResult/Contents") :
    closeEntry c s = .ok s := by
  rw [closeEntry, if_neg h]

/-- Blank text is passed on, and any text below a path that holds text. -/
theorem text_reads {data : Bytes}
    (h : trimSpace data = [] ∨ (knownResponsePath c.plan.responseProfile s.path = true ∧
      responsePathIsContainer c.plan.responseProfile s.path = false)) :
    Reads c s [.charData data] (s.after [] s.listContentsOwnerSeen [.charData data]) := by
  refine Reads.round (fun rest => ?_)
  show (rewriteText c s data).map _ = _
  rw [rewriteText, if_neg]
  · rfl
  · rcases h with hblank | ⟨hknown, hscalar⟩
    · simp [hblank]
    · simp [hknown, hscalar]

theorem scalarPath_ne {path : Bytes} (h : scalarPath c.plan.responseProfile path = true) :
    path ≠ ascii "ListBucketResult/Contents" ∧
      path ≠ ascii "ListBucketResult/Contents/Owner" := by
  obtain ⟨hentry, howner, -⟩ := (schema_tables c.plan.responseProfile).2.1
  refine ⟨?_, ?_⟩
  · rintro rfl
    rw [hentry] at h
    exact nomatch h
  · rintro rfl
    rw [howner] at h
    exact nomatch h

/-- **A FIELD WITHOUT A RULE** is passed on. -/
theorem plain_reads {text : Bytes} (hs : s.At stack) (hopen : stack ≠ [])
    (hspace : name.space = [] ∨ name.space = s3XMLNamespace) (hname : name.localName ≠ [])
    (hscalar : scalarPath c.plan.responseProfile (join 47 (stack ++ [name.localName])) = true)
    (hrule : (ruleAt c (join 47 (stack ++ [name.localName]))).transform = .none) :
    Reads c s (elementTokens name attrs (textTokens text))
      (s.after [] s.listContentsOwnerSeen
        (elementTokens name (filterSafeXMLAttributes c attrs) (textTokens text))) := by
  obtain ⟨hentry, howner⟩ := scalarPath_ne hscalar
  have htable := hscalar
  simp only [scalarPath, Bool.and_eq_true, Bool.not_eq_true'] at htable
  obtain ⟨⟨hknown, hidentity⟩, hholds⟩ := htable
  -- a scalar without a rule is no container, so its text may stand there
  have hcontainer : responsePathIsContainer c.plan.responseProfile
      (join 47 (stack ++ [name.localName])) = false := by
    rw [show ((responseFieldRuleForPath c.plan.responseProfile _).getD {}).transform = _ from
      hrule] at hholds
    simpa using hholds
  have hstart : Reads c s [.startElement name attrs] (s.opened c name attrs) := by
    have h : Reads c s [.startElement name attrs] ((s.trackOwner _).opened c name attrs) :=
      start_reads hs hopen hspace hname hknown hidentity hrule
    rwa [trackOwner_other hentry howner] at h
  have hinside : (s.opened c name attrs).At (stack ++ [name.localName]) := hs.opened
  have hpath : (s.opened c name attrs).path = join 47 (stack ++ [name.localName]) := by
    rw [Rewriter.path, hinside.stack]
  have htext : Reads c (s.opened c name attrs) (textTokens text)
      ((s.opened c name attrs).after [] s.listContentsOwnerSeen (textTokens text)) := by
    by_cases hempty : text = []
    · rw [textTokens, if_pos hempty]
      have hsame : (s.opened c name attrs).after [] s.listContentsOwnerSeen [] =
          s.opened c name attrs := by
        simp [Rewriter.after, Rewriter.opened, Rewriter.wrote]
      rw [hsame]
      exact Reads.refl
    · rw [textTokens, if_neg hempty]
      exact text_reads (.inr (by rw [hpath]; exact ⟨hknown, hcontainer⟩))
  refine hstart.append (htext.append (end_reads hname ?_))
  refine closeEntry_other ?_
  rw [Rewriter.path, (hinside.after [] s.listContentsOwnerSeen (textTokens text)).stack]
  exact hentry

end

/-! ## Shapes -/

theorem shape_append (ts us : List Token) : shape (ts ++ us) = shape ts ++ shape us :=
  List.filterMap_append

theorem shape_element (name : Name) (attrs : List Attr) (inner : List Token) :
    shape (elementTokens name attrs inner) = elementTokens name [] (shape inner) := by
  show .startElement name [] :: shape (inner ++ [.endElement name]) = _
  rw [shape_append]
  rfl

theorem shape_text (text : Bytes) : shape [.charData text] = shape (textTokens text) := by
  cases text with
  | nil | cons => rfl

/-! ## Leaves and entries -/

/-- The owners seen after a leaf. -/
def Leaf.owners (stack : List Bytes) (owners : List Bool) (leaf : Leaf) : List Bool :=
  if leaf.isOwner stack = true ∧ owners ≠ [] then owners.dropLast ++ [true] else owners

/-- What rewriting rests on: tokens can be opened, the mapping is in normal form, and keys
    are listed as they are. -/
structure Virtualizes (c : ResponseContext) : Prop where
  opens : c.crypto.Opens
  bucket : isValidBucketName c.cfg.realBucket = true
  cipher : ∃ cipher, routingTokenCipher c.crypto c.cfg = .ok cipher
  plain : urlEncoded c = false

section
variable {c : ResponseContext} {s : Rewriter} {space : Bytes} {stack : List Bytes}

/-- **LEAF**: a leaf that realizes one of the client's is written as that one. -/
theorem leaf_reads (hc : Virtualizes c) (hspace : space = [] ∨ space = s3XMLNamespace)
    (hs : s.At stack) (hopen : stack ≠ []) {v d : Leaf} (h : LeafRealizes c stack v d)
    (hbounded : d.Bounded c stack) :
    ∃ more, Reads c s (d.tokens space)
        (s.after (v.fields c stack) (v.owners stack s.listContentsOwnerSeen) more) ∧
      shape more = shape (v.tokens space) := by
  cases h with
  | space hblank => exact ⟨_, text_reads (.inl hblank), rfl⟩
  | @field name text origin attrs attrs' hname hscalar htext =>
      obtain ⟨hentry, howner⟩ := scalarPath_ne hscalar
      by_cases hrule : (ruleAt c (join 47 (stack ++ [name]))).transform = .none
      · rw [hrule] at htext
        obtain rfl : origin = text := htext
        refine ⟨elementTokens ⟨space, name⟩ (filterSafeXMLAttributes c attrs') (textTokens origin),
          ?_, ?_⟩
        · rw [Leaf.fields, if_pos hrule]
          exact plain_reads hs hopen hspace hname hscalar hrule
        · rw [shape_element, Leaf.tokens, shape_element]
      · obtain ⟨cipher, hcipher⟩ := hc.cipher
        have happly := applyResponseTextTransform_realizes hc.opens hc.bucket hcipher hc.plain htext
        -- only a field with a rule is buffered, and only there the limit counts
        have hsize : origin.length ≤ maxS3ControlResponseBytes := by
          refine hbounded (join 47 (stack ++ [name]), origin) ?_
          rw [Leaf.fields, if_neg hrule]
          exact List.mem_singleton_self _
        refine ⟨elementTokens ⟨space, name⟩ (filterSafeXMLAttributes c attrs') [.charData text],
          ?_, ?_⟩
        · rw [Leaf.fields, if_neg hrule]
          exact field_reads hs hopen hspace hname hscalar hrule hsize happly
            (trackOwner_other hentry howner)
        · rw [shape_element, shape_text, Leaf.tokens, shape_element]
  | @identity name attrs attrs' contents hname hidentity hbalanced =>
      have hentry : join 47 (stack ++ [name]) ≠ ascii "ListBucketResult/Contents" := by
        intro hpath
        rw [hpath, (schema_tables c.plan.responseProfile).2.1.2.2.2] at hidentity
        exact nomatch hidentity
      -- an owner is noted for the innermost entry that is open
      have howners : (s.trackOwner (join 47 (stack ++ [name]))).listContentsOwnerSeen =
          Leaf.owners stack s.listContentsOwnerSeen
            (.identity name attrs (identityFields.flatMap (identityField c.plan.bucket))) := by
        rw [Rewriter.trackOwner, if_neg hentry, Leaf.owners, Leaf.isOwner]
        by_cases howner : join 47 (stack ++ [name]) = ascii "ListBucketResult/Contents/Owner"
        · by_cases hnone : s.listContentsOwnerSeen = []
          · simp [howner, hnone]
          · simp [howner, hnone]
        · simp [howner]
      refine ⟨elementTokens ⟨space, name⟩ (filterSafeXMLAttributes c attrs')
        (identityFields.flatMap (identityField c.plan.bucket)), ?_, ?_⟩
      · rw [← howners]
        exact identity_reads hs hopen hspace hname hidentity hbalanced
      · rw [shape_element, Leaf.tokens, shape_element]

/-- And so are the leaves of a group, in order. -/
theorem leaves_read (hc : Virtualizes c) (hspace : space = [] ∨ space = s3XMLNamespace)
    (hs : s.At stack) (hopen : stack ≠ []) {vs ds : List Leaf}
    (h : List.Forall₂ (LeafRealizes c stack) vs ds) (hbounded : ∀ d ∈ ds, d.Bounded c stack) :
    ∃ more, Reads c s (ds.flatMap (Leaf.tokens space))
        (s.after (vs.flatMap (Leaf.fields c stack))
          (vs.foldl (Leaf.owners stack) s.listContentsOwnerSeen) more) ∧
      shape more = shape (vs.flatMap (Leaf.tokens space)) := by
  induction h generalizing s with
  | nil =>
      refine ⟨[], ?_, rfl⟩
      have hsame : s.after [] s.listContentsOwnerSeen [] = s := by
        simp [Rewriter.after]
      show Reads c s [] (s.after [] s.listContentsOwnerSeen [])
      rw [hsame]
      exact Reads.refl
  | @cons v d vs ds hleaf _ ih =>
      obtain ⟨hfirst, hrest⟩ := List.forall_mem_cons.mp hbounded
      obtain ⟨more, hread, hshape⟩ := leaf_reads hc hspace hs hopen hleaf hfirst
      obtain ⟨more', hread', hshape'⟩ := ih (hs.after (v.fields c stack)
        (v.owners stack s.listContentsOwnerSeen) more) hrest
      refine ⟨more ++ more', ?_, ?_⟩
      · rw [after_after] at hread'
        exact hread.append hread'
      · rw [shape_append, hshape, hshape', List.flatMap_cons, shape_append]

/-- Once an owner is seen in an entry it stays seen. -/
theorem foldl_owners (stack : List Bytes) (vs : List Leaf) (owners : List Bool) (seen : Bool) :
    vs.foldl (Leaf.owners stack) (owners ++ [seen]) =
      owners ++ [seen || vs.any (Leaf.isOwner stack)] := by
  induction vs generalizing seen with
  | nil => simp
  | cons v vs ih =>
      rw [List.foldl_cons, Leaf.owners]
      cases howner : v.isOwner stack with
      | true | false => simp [howner, ih]

/-- Outside entries of objects there are no owners. -/
theorem foldl_owners_nil (vs : List Leaf) : vs.foldl (Leaf.owners stack) [] = [] := by
  induction vs with
  | nil => rfl
  | cons v vs ih =>
      rw [List.foldl_cons, Leaf.owners, if_neg (fun h => h.2 rfl), ih]

theorem after_owners (fields : List (Bytes × Bytes)) (owners owners' : List Bool)
    (more : List Token) :
    ({ s with listContentsOwnerSeen := owners } : Rewriter).after fields owners' more =
      s.after fields owners' more := by
  have hfold := foldl_record fields s s.stack owners s.encoder
  have hstack := (foldl_record_stack fields s).1
  have hrecorded : fields.foldl (fun s f => s.record f.1 f.2)
      { s with listContentsOwnerSeen := owners } = _ := hfold
  rw [Rewriter.after, hrecorded, Rewriter.after]
  simp only [← hstack]

/-- A group is an element without a rule. -/
theorem groupPath_spec {path : Bytes} (h : groupPath c.plan.responseProfile path = true) :
    knownResponsePath c.plan.responseProfile path = true ∧
      (ruleAt c path).identityContainer = false ∧ (ruleAt c path).transform = .none ∧
      path ≠ ascii "ListBucketResult/Contents/Owner" := by
  have howner : path ≠ ascii "ListBucketResult/Contents/Owner" := by
    rintro rfl
    rw [(schema_tables c.plan.responseProfile).2.1.2.2.1] at h
    exact nomatch h
  simp only [groupPath, Bool.and_eq_true, Option.isNone_iff_eq_none] at h
  refine ⟨h.1.1, ?_, ?_, howner⟩
  · rw [ruleAt, h.1.2]
    rfl
  · rw [ruleAt, h.1.2]
    rfl

/-- The leaves of an element that was passed on, and its end. -/
theorem rest_of_group_reads (hc : Virtualizes c) (hspace : space = [] ∨ space = s3XMLNamespace)
    (hs : s.At stack) {name : Bytes} (attrs : List Attr) {vs ds : List Leaf} (owners : List Bool)
    (hname : name ≠ []) (hleaves : List.Forall₂ (LeafRealizes c (stack ++ [name])) vs ds)
    (hbounded : ∀ d ∈ ds, d.Bounded c (stack ++ [name]))
    (hclose : ∀ s' : Rewriter, s'.path = join 47 (stack ++ [name]) →
      s'.listContentsOwnerSeen = vs.foldl (Leaf.owners (stack ++ [name])) s.listContentsOwnerSeen →
      closeEntry c s' = .ok { s' with listContentsOwnerSeen := owners }) :
    ∃ more, Reads c (s.opened c ⟨space, name⟩ attrs)
        (ds.flatMap (Leaf.tokens space) ++ [.endElement ⟨space, name⟩])
        (s.after (vs.flatMap (Leaf.fields c (stack ++ [name]))) owners
          (elementTokens ⟨space, name⟩ (filterSafeXMLAttributes c attrs) more)) ∧
      shape more = shape (vs.flatMap (Leaf.tokens space)) := by
  have hinside : (s.opened c ⟨space, name⟩ attrs).At (stack ++ [name]) := hs.opened
  obtain ⟨more, hread, hshape⟩ := leaves_read hc hspace hinside (by simp) hleaves hbounded
  refine ⟨more, hread.append (end_reads hname (hclose _ ?_ rfl)), hshape⟩
  rw [Rewriter.path, (hinside.after _ _ _).stack]

/-- The end of an entry of an object, whose owner is on top. -/
theorem closeEntry_contents {owner : Bool} (hpath : s.path = ascii "ListBucketResult/Contents")
    (hseen : s.listContentsOwnerSeen = [owner])
    (howner : c.plan.query.get (ascii "fetch-owner") = ascii "true" → owner = true) :
    closeEntry c s = .ok { s with listContentsOwnerSeen := [] } := by
  rw [closeEntry, if_pos hpath, hseen]
  show (if _ then _ else _) = _
  rw [if_neg]
  · rfl
  · rintro ⟨hfetch, hmissing⟩
    rw [howner hfetch] at hmissing
    cases hmissing

/-- An item is read; between entries no owner is remembered. -/
theorem item_reads (hc : Virtualizes c) (hspace : space = [] ∨ space = s3XMLNamespace)
    {root : Bytes} (hs : s.At [root]) (howners : s.listContentsOwnerSeen = []) {v d : Item}
    (h : ItemRealizes c root v d) (hbounded : d.Bounded c root) :
    ∃ more, Reads c s (d.tokens space) (s.after (v.fields c root) [] more) ∧
      shape more = shape (v.tokens space) := by
  cases h with
  | @leaf v d h =>
      obtain ⟨more, hread, hshape⟩ := leaf_reads hc hspace hs (List.cons_ne_nil _ _) h hbounded
      refine ⟨more, ?_, hshape⟩
      have hnone : Leaf.owners [root] s.listContentsOwnerSeen v = [] := by
        rw [howners]
        exact if_neg (fun h => h.2 rfl)
      rw [hnone] at hread
      exact hread
  | @group name attrs attrs' vs ds hname hgroup hleaves howner =>
      obtain ⟨hknown, hidentity, hrule, hnotOwner⟩ := groupPath_spec hgroup
      have hstart : Reads c s [.startElement ⟨space, name⟩ attrs']
          ((s.trackOwner (join 47 [root, name])).opened c ⟨space, name⟩ attrs') :=
        start_reads hs (List.cons_ne_nil _ _) hspace hname hknown hidentity hrule
      -- the opening tag first; what follows depends on whether the group is an entry
      suffices hrest : ∃ more, Reads c
            ((s.trackOwner (join 47 [root, name])).opened c ⟨space, name⟩ attrs')
            (ds.flatMap (Leaf.tokens space) ++ [.endElement ⟨space, name⟩])
            (s.after (vs.flatMap (Leaf.fields c [root, name])) []
              (elementTokens ⟨space, name⟩ (filterSafeXMLAttributes c attrs') more)) ∧
          shape more = shape (vs.flatMap (Leaf.tokens space)) by
        obtain ⟨more, hread, hshape⟩ := hrest
        refine ⟨_, hstart.append hread, ?_⟩
        rw [shape_element, hshape, Item.tokens, shape_element]
      by_cases hentry : join 47 [root, name] = ascii "ListBucketResult/Contents"
      · rw [Rewriter.trackOwner, if_pos hentry, howners]
        obtain ⟨more, hread, hshape⟩ := rest_of_group_reads hc hspace
          (show ({ s with listContentsOwnerSeen := [false] } : Rewriter).At [root] from
            ⟨hs.stack, hs.aligned, hs.seenRoot⟩) attrs' [] hname hleaves hbounded (by
          intro s' hpath hseen
          refine closeEntry_contents (hpath.trans hentry) ?_ (fun hfetch => howner hfetch hentry)
          have hfold := foldl_owners [root, name] vs [] false
          rw [Bool.false_or] at hfold
          exact hseen.trans hfold)
        have hsame : ∀ more, ({ s with listContentsOwnerSeen := [false] } : Rewriter).after
            (vs.flatMap (Leaf.fields c [root, name])) [] more =
              s.after (vs.flatMap (Leaf.fields c [root, name])) [] more :=
          fun more => after_owners _ _ _ more
        exact ⟨more, hsame _ ▸ hread, hshape⟩
      · rw [trackOwner_other hentry hnotOwner]
        refine rest_of_group_reads hc hspace hs attrs' [] hname hleaves hbounded ?_
        intro s' hpath hseen
        have hnone : s'.listContentsOwnerSeen = [] := by
          rw [hseen, howners]
          exact foldl_owners_nil vs
        rw [closeEntry_other (by rw [hpath]; exact hentry), ← hnone]

/-- **ITEMS**: hence all items of a document; groups are closed again, so the next
    item begins where this one did. -/
theorem items_read (hc : Virtualizes c) (hspace : space = [] ∨ space = s3XMLNamespace)
    {root : Bytes} (hs : s.At [root]) (howners : s.listContentsOwnerSeen = []) {vs ds : List Item}
    (h : List.Forall₂ (ItemRealizes c root) vs ds) (hbounded : ∀ d ∈ ds, d.Bounded c root) :
    ∃ more, Reads c s (ds.flatMap (Item.tokens space))
        (s.after (vs.flatMap (Item.fields c root)) [] more) ∧
      shape more = shape (vs.flatMap (Item.tokens space)) := by
  induction h generalizing s with
  | nil =>
      refine ⟨[], ?_, rfl⟩
      have hsame : s.after [] [] [] = s := by
        rw [← howners]
        simp [Rewriter.after]
      show Reads c s [] (s.after [] [] [])
      rw [hsame]
      exact Reads.refl
  | @cons v d vs ds hitem _ ih =>
      obtain ⟨hfirst, hrest⟩ := List.forall_mem_cons.mp hbounded
      obtain ⟨more, hread, hshape⟩ := item_reads hc hspace hs howners hitem hfirst
      obtain ⟨more', hread', hshape'⟩ := ih (hs.after (v.fields c root) [] more) rfl hrest
      refine ⟨more ++ more', ?_, ?_⟩
      · rw [after_after] at hread'
        exact hread.append hread'
      · rw [shape_append, hshape, hshape', List.flatMap_cons, shape_append]

/-! ## The variables at the end -/

/-- A variable that remembers the last field under one path. -/
theorem foldl_last {α : Type} (var : Rewriter → α) (path : Bytes) (value : Bytes → α)
    (hrecord : ∀ (s : Rewriter) (p t : Bytes),
      var (s.record p t) = if p = path then value t else var s)
    (fields : List (Bytes × Bytes)) (s : Rewriter) :
    (∃ text, (path, text) ∈ fields ∧
      var (fields.foldl (fun s f => s.record f.1 f.2) s) = value text) ∨
    (path ∉ fields.map Prod.fst ∧
      var (fields.foldl (fun s f => s.record f.1 f.2) s) = var s) := by
  induction fields generalizing s with
  | nil => exact .inr ⟨List.not_mem_nil, rfl⟩
  | cons f fields ih =>
      rw [List.foldl_cons]
      rcases ih (s.record f.1 f.2) with ⟨text, hmem, hvalue⟩ | ⟨hnot, hvalue⟩
      · exact .inl ⟨text, List.mem_cons_of_mem _ hmem, hvalue⟩
      · rw [hrecord] at hvalue
        by_cases hpath : f.1 = path
        · rw [if_pos hpath] at hvalue
          exact .inl ⟨f.2, hpath ▸ List.mem_cons_self, hvalue⟩
        · rw [if_neg hpath] at hvalue
          refine .inr ⟨?_, hvalue⟩
          rw [List.map_cons, List.mem_cons, not_or]
          exact ⟨Ne.symm hpath, hnot⟩

theorem mem_seenFields (fields : List (Bytes × Bytes)) (s : Rewriter) (path : Bytes) :
    path ∈ (fields.foldl (fun s f => s.record f.1 f.2) s).seenFields ↔
      path ∈ fields.map Prod.fst ∨ path ∈ s.seenFields := by
  induction fields generalizing s with
  | nil => simp
  | cons f fields ih =>
      rw [List.foldl_cons, ih]
      show _ ∨ path ∈ f.1 :: s.seenFields ↔ _
      simp only [List.map_cons, List.mem_cons]
      tauto

/-- An empty next marker is accepted where nothing is left out. -/
theorem nextMarker_ok {var : Rewriter → Option Bool} {empty : Rewriter → Bool}
    {marker truncated : Bytes} {fields : List (Bytes × Bytes)} {reason : Reason}
    (hvar : ∀ (s : Rewriter) (p t : Bytes),
      var (s.record p t) = if p = truncated then some (Rewriter.parsedBool t) else var s)
    (hempty : ∀ (s : Rewriter) (p t : Bytes),
      empty (s.record p t) = if p = marker then decide (t = []) else empty s)
    (hmarker : (marker, []) ∈ fields → truncated ∈ fields.map Prod.fst ∧
      ∀ text, (truncated, text) ∈ fields → text = ascii "false") {s : Rewriter}
    (hs : s.seenFields = []) :
    refuseIf ((fields.foldl (fun s f => s.record f.1 f.2) s).seenFields.contains marker &&
        empty (fields.foldl (fun s f => s.record f.1 f.2) s) &&
        var (fields.foldl (fun s f => s.record f.1 f.2) s) != some false) reason = .ok () := by
  rw [refuseIf_ok_iff, ← Bool.not_eq_true]
  simp only [Bool.and_eq_true, List.contains_iff_mem, bne_iff_ne]
  rintro ⟨⟨hseen, hnone⟩, htruncated⟩
  have hmem : marker ∈ fields.map Prod.fst := by
    rcases (mem_seenFields fields s marker).mp hseen with hmem | hmem
    · exact hmem
    · rw [hs] at hmem
      exact nomatch hmem
  -- the last marker was empty, so every truncation was denied
  rcases foldl_last empty marker _ hempty fields s with ⟨text, htext, hlast⟩ | ⟨hnot, -⟩
  · rw [hlast, decide_eq_true_eq] at hnone
    subst hnone
    obtain ⟨hpresent, hfalse⟩ := hmarker htext
    rcases foldl_last var truncated _ hvar fields s with ⟨flag, hflag, hvalue⟩ | ⟨habsent, -⟩
    · rw [hvalue, hfalse flag hflag] at htruncated
      exact htruncated (by decide)
    · exact habsent hpresent
  · exact hnot hmem

/-- **A COMPLETE DOCUMENT** passes the checks at its end. -/
theorem checkDocument_ok {fields : List (Bytes × Bytes)} (h : Complete c fields)
    {s : Rewriter} (hs : s.seenFields = [] ∧ s.listPartsTruncated = none)
    (hroot : s.seenRoot = true) (hstack : s.stack = []) :
    checkDocument c (fields.foldl (fun s f => s.record f.1 f.2) s) = .ok () := by
  have hseen : ∀ path, path ∈ fields.map Prod.fst →
      (fields.foldl (fun s f => s.record f.1 f.2) s).seenFields.contains path = true := by
    intro path hpath
    exact List.contains_iff_mem.mpr ((mem_seenFields fields s path).mpr (.inl hpath))
  obtain ⟨hfoldStack, hfoldRoot⟩ := foldl_record_stack fields s
  refine seq_ok_iff.mpr ⟨?_, seq_ok_iff.mpr ⟨?_, seq_ok_iff.mpr ⟨?_, seq_ok_iff.mpr ⟨?_, ?_⟩⟩⟩⟩
  · rw [refuseIf_ok_iff, hfoldStack, hfoldRoot, hroot, hstack]
    rfl
  · rw [checkEach_ok_iff]
    intro e he
    rw [refuseIf_ok_iff]
    cases hrequired : e.2.required with
    | false => rfl
    | true => rw [hseen _ (h.required e he hrequired)]; rfl
  · rw [refuseIf_ok_iff, ← Bool.not_eq_true]
    simp only [Bool.and_eq_true, decide_eq_true_eq, beq_iff_eq, Bool.not_eq_true']
    rintro ⟨⟨-, htruncated⟩, hmissing⟩
    -- the last `IsTruncated` of the document is the one that counts
    rcases foldl_last Rewriter.listPartsTruncated (ascii "ListPartsResult/IsTruncated")
        (fun text => some (Rewriter.parsedBool text)) (fun _ _ _ => rfl) fields s with
      ⟨text, htext, hvalue⟩ | ⟨-, hvalue⟩
    · rw [hseen _ (h.nextPart text htext ?_)] at hmissing
      · exact nomatch hmissing
      · rintro rfl
        rw [hvalue] at htruncated
        exact absurd htruncated (by decide)
    · rw [hvalue, hs.2] at htruncated
      exact nomatch htruncated
  · exact nextMarker_ok (fun _ _ _ => rfl) (fun _ _ _ => rfl) h.nextToken hs.1
  · exact nextMarker_ok (fun _ _ _ => rfl) (fun _ _ _ => rfl) h.nextUpload hs.1

/-! ## Documents -/

/-- What may stand before the root: blank text, comments, instructions and directives. -/
def isAside : Token → Bool
  | .charData data => trimSpace data == []
  | .comment _ | .procInst _ _ | .directive _ => true
  | .startElement _ _ | .endElement _ => false

def isText : Token → Bool
  | .charData _ => true
  | _ => false

/-- Of what stands before the root only the blanks are passed on. -/
theorem asides_read {asides : List Token} (h : ∀ t ∈ asides, isAside t = true) :
    Reads c s asides (s.after [] s.listContentsOwnerSeen (asides.filter isText)) := by
  have hsame : ∀ s : Rewriter, s.after [] s.listContentsOwnerSeen [] = s := by
    intro s
    simp [Rewriter.after]
  induction asides generalizing s with
  | nil =>
      show Reads c s [] (s.after [] s.listContentsOwnerSeen [])
      rw [hsame]
      exact Reads.refl
  | cons t asides ih =>
      have hrest : ∀ t ∈ asides, isAside t = true := fun t ht => h t (List.mem_cons_of_mem _ ht)
      have ht := h t List.mem_cons_self
      cases t with
      | charData data =>
          have hblank : trimSpace data = [] := by simpa [isAside] using ht
          have hread : Reads c s [.charData data] _ := text_reads (.inl hblank)
          have hlater := hread.append (ih hrest)
          rw [after_after] at hlater
          exact hlater
      | comment data =>
          have hread : Reads c s [.comment data] s := Reads.round (fun rest => rfl)
          exact hread.append (ih hrest)
      | procInst target inst =>
          have hread : Reads c s [.procInst target inst] s := Reads.round (fun rest => rfl)
          exact hread.append (ih hrest)
      | directive data =>
          have hread : Reads c s [.directive data] s := Reads.round (fun rest => rfl)
          exact hread.append (ih hrest)
      | startElement | endElement => exact nomatch ht

/-- The first start tag is that of the root. -/
theorem root_reads {attrs : List Attr} (hstack : s.stack = []) (hseen : s.seenRoot = false)
    (hspace : space = [] ∨ space = s3XMLNamespace)
    (hname : expectedResponseRoot c.plan.responseProfile ≠ []) :
    Reads c s [.startElement ⟨space, expectedResponseRoot c.plan.responseProfile⟩ attrs]
      (({ s with seenRoot := true } : Rewriter).opened c
        ⟨space, expectedResponseRoot c.plan.responseProfile⟩ attrs) := by
  obtain ⟨hknown, hrule, hentry, howner⟩ := (schema_tables c.plan.responseProfile).2.2
  refine Reads.round (fun rest => ?_)
  have hcheck : checkStart c s ⟨space, expectedResponseRoot c.plan.responseProfile⟩ = .ok () := by
    rw [checkStart, hseen]
    refine seq_ok_iff.mpr ⟨rfl, seq_ok_iff.mpr ⟨?_, ?_⟩⟩
    · rw [refuseIf_ok_iff]
      rcases hspace with hspace | hspace <;> simp [hspace]
    · rw [refuseIf_ok_iff]
      simp
  show rewriteStart c atEOF s _ attrs _ = _
  rw [rewriteStart, hcheck]
  show (if _ then rewriteKnown c atEOF _ _ attrs
    (join 47 (s.stack ++ [expectedResponseRoot c.plan.responseProfile])) _ else _) = _
  rw [hstack]
  show (if knownResponsePath c.plan.responseProfile
    (expectedResponseRoot c.plan.responseProfile) = true then _ else _) = _
  rw [if_pos hknown]
  show rewriteKnown c atEOF _ _ attrs (expectedResponseRoot c.plan.responseProfile) _ = _
  rw [rewriteKnown, trackOwner_other hentry howner, encodeStart_eq hname, hrule]
  rfl

/-- What is read, rewriting accepts and writes. -/
theorem rewriteNamespaceXML_of_reads {tokens : List Token} {s' : Rewriter}
    (h : Reads c {} tokens s') (hcheck : checkDocument c s' = .ok ()) :
    rewriteNamespaceXML c tokens none = .ok s'.encoder.out := by
  obtain ⟨rounds, -, hrun⟩ := h [] tokens.length (by rw [List.append_nil])
  rw [List.append_nil] at hrun
  have hdone : rewriteLoop c none rounds s' [] = .ok s' := by
    cases rounds <;> rfl
  rw [rewriteNamespaceXML, hrun, hdone]
  show (do (checkDocument c s').mapError s'.fail; .ok s'.encoder.out) = _
  rw [hcheck]
  rfl

/-- The loop when it meets the root. -/
def Rewriter.atRoot (asides : List Token) : Rewriter :=
  { ({} : Rewriter).after [] [] (asides.filter isText) with seenRoot := true }

/-- **A WHOLE DOCUMENT** is read, item by item. -/
theorem document_reads (hc : Virtualizes c) {V D : Document} (h : DocumentRealizes c V D)
    (hbounded : D.Bounded c) {asides : List Token} (hasides : ∀ t ∈ asides, isAside t = true) :
    ∃ more, Reads c {} (asides ++ D.tokens)
        ((Rewriter.atRoot asides).after (V.fields c) [] more) ∧
      shape more = shape V.tokens := by
  obtain ⟨hroot, hname, hsameRoot⟩ := h.root
  obtain ⟨hspace, hsameSpace⟩ := h.space
  have hitems := h.items
  rw [Document.Bounded, hsameRoot] at hbounded
  rw [Document.tokens, Document.tokens, Document.fields, hsameRoot, hsameSpace]
  rw [hroot] at hname hitems hbounded ⊢
  have hfront : Reads c {} asides (({} : Rewriter).after [] [] (asides.filter isText)) :=
    asides_read hasides
  have hstart : Reads c (({} : Rewriter).after [] [] (asides.filter isText))
      [.startElement ⟨V.space, expectedResponseRoot c.plan.responseProfile⟩ D.attrs]
      ((Rewriter.atRoot asides).opened c
        ⟨V.space, expectedResponseRoot c.plan.responseProfile⟩ D.attrs) :=
    root_reads rfl rfl hspace hname
  have hat : ((Rewriter.atRoot asides).opened c
      ⟨V.space, expectedResponseRoot c.plan.responseProfile⟩ D.attrs).At
        [expectedResponseRoot c.plan.responseProfile] := ⟨rfl, rfl, rfl⟩
  obtain ⟨more, hbody, hshape⟩ := items_read hc hspace hat rfl hitems hbounded
  refine ⟨_, hfront.append (hstart.append (hbody.append (end_reads hname
    (closeEntry_other ?_)))), ?_⟩
  · rw [Rewriter.path, (hat.after _ _ _).stack]
    exact (schema_tables c.plan.responseProfile).2.2.2.2.1
  · rw [shape_element, hshape, shape_element]

/-- The context of a mapping in normal form, for requests that ask for no encoding, is
    one the results are about. -/
theorem virtualizes_of_normalized {raw : Option VBucketConfig} (hlaw : c.crypto.Opens)
    (hcfg : normalizeVBucketConfig c.hosts c.crypto raw = .ok c.cfg)
    (hplain : c.plan.query.get (ascii "encoding-type") = []) : Virtualizes c := by
  refine ⟨hlaw, (normalize_spec hcfg).bucket, exists_routingTokenCipher (normalize_key hcfg), ?_⟩
  rw [urlEncoded, hplain]
  rfl

/-- **REWRITING UNDOES REALIZATION.**  For every document a client should see, and every one
    an origin may send for it with at most a mebibyte of text in each field with a rule, the
    rewriter accepts the second and writes the first. -/
theorem rewriting_undoes_realization {raw : Option VBucketConfig} (hlaw : c.crypto.Opens)
    (hcfg : normalizeVBucketConfig c.hosts c.crypto raw = .ok c.cfg)
    (hplain : c.plan.query.get (ascii "encoding-type") = []) {V D : Document}
    (h : DocumentRealizes c V D) (hbounded : D.Bounded c) {asides : List Token}
    (hasides : ∀ t ∈ asides, isAside t = true) :
    ∃ out, rewriteNamespaceXML c (asides ++ D.tokens) none = .ok out ∧
      shape out = shape (asides.filter isText ++ V.tokens) := by
  have hc := virtualizes_of_normalized hlaw hcfg hplain
  obtain ⟨more, hread, hshape⟩ := document_reads hc h hbounded hasides
  refine ⟨_, rewriteNamespaceXML_of_reads hread ?_, ?_⟩
  · -- the checks see neither the owners nor what was written
    show checkDocument c ((V.fields c).foldl (fun s f => s.record f.1 f.2)
      (Rewriter.atRoot asides)) = .ok ()
    exact checkDocument_ok h.complete ⟨rfl, rfl⟩ rfl rfl
  · show shape (([] ++ asides.filter isText) ++ more) = _
    rw [List.nil_append, shape_append, hshape, shape_append]

end

/-! ## A listing -/

/-- The context of the sample listing, with tokens that can be opened. -/
def openedContext (plan : S3OperationPlan) : ResponseContext :=
  ⟨framedCrypto, sampleHosts, plan, framedConfig (ascii "t"), ascii "t/", []⟩

/-- A listing of one object, with the texts and the owner it is shown or sent with. -/
def oneObject (bucket key : Bytes) (owner : List Token) : Document where
  space := s3XMLNamespace
  root := ascii "ListBucketResult"
  attrs := []
  items :=
    [.leaf (.field (ascii "Name") [] bucket), .leaf (.space (ascii "\n")),
      .group (ascii "Contents") []
        [.field (ascii "Key") [] key, .identity (ascii "Owner") [] owner]]

/-- The sample listing: one object under the prefix stands for one object of the
    client. -/
theorem oneObject_realizes {plan : S3OperationPlan} (hprofile : plan.responseProfile = .listObjects)
    (hbucket : plan.bucket = ascii "vbk") {key : Bytes} (hne : key ≠ [])
    (hvalid : validateVirtualObjectKey key = .ok ()) :
    DocumentRealizes (openedContext plan)
      (oneObject (ascii "vbk") key (identityFields.flatMap (identityField (ascii "vbk"))))
      (oneObject (ascii "abc") (ascii "t/" ++ key) [.charData (ascii "origin")]) := by
  have hrule : ∀ path, ruleAt (openedContext plan) path =
      (responseFieldRuleForPath .listObjects path).getD {} := by
    intro path
    show (responseFieldRuleForPath plan.responseProfile path).getD {} = _
    rw [hprofile]
  have htable : (scalarPath .listObjects (ascii "ListBucketResult/Name") = true ∧
      scalarPath .listObjects (ascii "ListBucketResult/Contents/Key") = true ∧
      groupPath .listObjects (ascii "ListBucketResult/Contents") = true ∧
      identityPath .listObjects (ascii "ListBucketResult/Contents/Owner") = true) ∧
      ((responseFieldRuleForPath .listObjects (ascii "ListBucketResult/Name")).getD {}).transform =
        .virtualBucket ∧
      ((responseFieldRuleForPath .listObjects
        (ascii "ListBucketResult/Contents/Key")).getD {}).transform = .virtualKey ∧
      ∀ e ∈ responseFieldRules .listObjects, e.2.required = false := by
    unfold scalarPath groupPath identityPath knownResponsePath responsePathIsContainer
      responseFieldRuleForPath knownResponsePaths responseFieldRules expectedResponseRoot
    simp only [responsePathSet, List.map_cons, List.map_nil, ascii_append]
    repeat rw [ascii_ofList]
    decide +kernel
  obtain ⟨⟨hscalarName, hscalarKey, hgroup, hidentity⟩, hname, hkey, hrequired⟩ := htable
  have hlist : (openedContext plan).plan.responseProfile.listsKeys = true := by
    show plan.responseProfile.listsKeys = true
    rw [hprofile]
    rfl
  rw [← hprofile] at hscalarName hscalarKey hgroup hidentity hrequired
  refine ⟨⟨?_, List.cons_ne_nil _ _, rfl⟩, ⟨.inr rfl, rfl⟩, ?_, ?_⟩
  · show _ = expectedResponseRoot plan.responseProfile
    rw [hprofile]
    rfl
  · refine .cons (.leaf ?_) (.cons (.leaf (.space (by decide))) (.cons ?_ .nil))
    · refine .field (by decide) hscalarName ?_
      rw [hrule]
      show TextRealizes _ _ _ _ ((responseFieldRuleForPath .listObjects
        (ascii "ListBucketResult/Name")).getD {}).transform
      rw [hname]
      exact ⟨hbucket.symm, rfl⟩
    · refine .group (by decide) hgroup (.cons ?_ (.cons ?_ .nil)) (fun _ _ => rfl)
      · refine .field (by decide) hscalarKey ?_
        rw [hrule]
        show TextRealizes _ _ _ _ ((responseFieldRuleForPath .listObjects
          (ascii "ListBucketResult/Contents/Key")).getD {}).transform
        rw [hkey, TextRealizes, KeyRealizes, if_pos hlist]
        exact .inr ⟨hne, hvalid, rfl⟩
      · show LeafRealizes _ [ascii "ListBucketResult", ascii "Contents"] _ _
        have hown : (openedContext plan).plan.bucket = ascii "vbk" := hbucket
        rw [← hown]
        exact .identity (by decide) hidentity (by decide)
  · have hfields : ∀ f ∈ Document.fields (openedContext plan) (oneObject (ascii "vbk") key
        (identityFields.flatMap (identityField (ascii "vbk")))),
          f.1 = ascii "ListBucketResult/Name" ∨ f.1 = ascii "ListBucketResult/Contents/Key" := by
      intro f hf
      simp only [Document.fields, oneObject, Item.fields, Leaf.fields, List.flatMap_cons,
        List.flatMap_nil, List.mem_append, List.not_mem_nil, or_false, false_or] at hf
      rcases hf with hf | hf
      · split at hf
        · exact nomatch hf
        · exact .inl (congrArg Prod.fst (List.mem_singleton.mp hf))
      · split at hf
        · exact nomatch hf
        · exact .inr (congrArg Prod.fst (List.mem_singleton.mp hf))
    refine ⟨?_, ?_, ?_, ?_⟩
    · intro e he hrequires
      rw [hrequired e he] at hrequires
      exact nomatch hrequires
    · intro text hmem
      exact absurd (hfields _ hmem) (by simp only; decide)
    · intro hmem
      exact absurd (hfields _ hmem) (by simp only; decide)
    · intro hmem
      exact absurd (hfields _ hmem) (by simp only; decide)

theorem listRequest_plan : ∃ plan, planS3Operation listRequest (ascii "vbk") [] = .ok plan ∧
    plan.responseProfile = .listObjects ∧ plan.bucket = ascii "vbk" ∧
    plan.query.get (ascii "encoding-type") = [] := by
  have hcheck : okAnd (planS3Operation listRequest (ascii "vbk") []) (fun plan =>
      plan.responseProfile = .listObjects ∧ plan.bucket = ascii "vbk" ∧
        plan.query.get (ascii "encoding-type") = []) = true := by
    decide +kernel
  obtain ⟨plan, hplan, htest⟩ := exists_of_okAnd hcheck
  exact ⟨plan, hplan, of_decide_eq_true htest⟩

theorem openedContext_normalized :
    normalizeVBucketConfig sampleHosts framedCrypto (some (framedConfig (ascii "t"))) =
      .ok (framedConfig (ascii "t")) := by
  decide +kernel

theorem field_bounded {c : ResponseContext} {stack : List Bytes} {name text : Bytes}
    {attrs : List Attr} (h : text.length ≤ maxS3ControlResponseBytes) :
    (Leaf.field name attrs text).Bounded c stack := by
  intro f hf
  rw [Leaf.fields] at hf
  split at hf
  · exact nomatch hf
  · rw [List.mem_singleton.mp hf]
    exact h

theorem oneObject_bounded {c : ResponseContext} {bucket key : Bytes} {owner : List Token}
    (hbucket : bucket.length ≤ maxS3ControlResponseBytes)
    (hkey : key.length ≤ maxS3ControlResponseBytes) : (oneObject bucket key owner).Bounded c := by
  have hno : ∀ (stack : List Bytes) (leaf : Leaf), leaf.fields c stack = [] →
      leaf.Bounded c stack := by
    intro stack leaf hnone f hf
    rw [hnone] at hf
    exact nomatch hf
  refine List.forall_mem_cons.mpr ⟨field_bounded hbucket, List.forall_mem_cons.mpr
    ⟨hno _ _ rfl, List.forall_mem_cons.mpr ⟨?_, fun _ h => nomatch h⟩⟩⟩
  exact List.forall_mem_cons.mpr ⟨field_bounded hkey, List.forall_mem_cons.mpr
    ⟨hno _ _ rfl, fun _ h => nomatch h⟩⟩

/-- An object under the prefix, with an owner of the origin, is shown without either. -/
theorem rewriting_undoes_realization_of_object :
    ∃ plan, planS3Operation listRequest (ascii "vbk") [] = .ok plan ∧
      ∃ out, rewriteNamespaceXML (openedContext plan) ([.procInst (ascii "xml") []] ++
          (oneObject (ascii "abc") (ascii "t/" ++ ascii "a")
            [.charData (ascii "origin")]).tokens) none = .ok out ∧
        shape out = shape (oneObject (ascii "vbk") (ascii "a")
          (identityFields.flatMap (identityField (ascii "vbk")))).tokens := by
  obtain ⟨plan, hplan, hprofile, hbucket, hplain⟩ := listRequest_plan
  have haside : ∀ t ∈ [Token.procInst (ascii "xml") []], isAside t = true := by
    intro t ht
    rw [List.mem_singleton.mp ht]
    rfl
  have hrealizes := oneObject_realizes hprofile hbucket (show ascii "a" ≠ [] by decide) (by decide)
  obtain ⟨out, hout, hshape⟩ := rewriting_undoes_realization (c := openedContext plan)
    framedCrypto_opens openedContext_normalized hplain hrealizes
    (oneObject_bounded (by decide) (by decide)) haside
  exact ⟨plan, hplan, out, hout, hshape⟩

/-! ## A text that is too long -/

section
variable {c : ResponseContext} {s s' : Rewriter} {stack : List Bytes} {name : Name}
  {attrs : List Attr}

/-- What fails after some tokens were read fails. -/
theorem rewriteNamespaceXML_fails {ts rest : List Token} {t : Token} (h : Reads c {} ts s')
    (hfails : ∃ e, rewriteToken c atEOF s' rest t = .error e) (out : List Token) :
    rewriteNamespaceXML c (ts ++ t :: rest) none ≠ .ok out := by
  obtain ⟨e, hfails⟩ := hfails
  obtain ⟨rounds, hrounds, hrun⟩ := h (t :: rest) _ le_rfl
  have herror : rewriteLoop c none rounds s' (t :: rest) = .error e := by
    cases rounds with
    | zero => exact absurd hrounds (by simp)
    | succ rounds =>
        show (rewriteToken c atEOF s' rest t >>= _) = _
        rw [hfails]
        rfl
  rw [rewriteNamespaceXML, hrun, herror]
  exact fun h => by cases h

/-- The root of a document and its first items are read. -/
theorem front_reads {space : Bytes} (hc : Virtualizes c)
    (hspace : space = [] ∨ space = s3XMLNamespace)
    (hname : expectedResponseRoot c.plan.responseProfile ≠ []) {vs ds : List Item}
    (h : List.Forall₂ (ItemRealizes c (expectedResponseRoot c.plan.responseProfile)) vs ds)
    (hbounded : ∀ d ∈ ds, d.Bounded c (expectedResponseRoot c.plan.responseProfile)) :
    ∃ s', Reads c {} (.startElement ⟨space, expectedResponseRoot c.plan.responseProfile⟩ attrs ::
        ds.flatMap (Item.tokens space)) s' ∧
      s'.At [expectedResponseRoot c.plan.responseProfile] := by
  have hstart : Reads c {}
      [.startElement ⟨space, expectedResponseRoot c.plan.responseProfile⟩ attrs] _ :=
    root_reads rfl rfl hspace hname
  have hat : (({ ({} : Rewriter) with seenRoot := true } : Rewriter).opened c
      ⟨space, expectedResponseRoot c.plan.responseProfile⟩ attrs).At
        [expectedResponseRoot c.plan.responseProfile] := ⟨rfl, rfl, rfl⟩
  obtain ⟨more, hread, -⟩ := items_read hc hspace hat rfl h hbounded
  exact ⟨_, hstart.append hread, hat.after _ _ _⟩

theorem Rewriter.At.trackOwner (hs : s.At stack) (path : Bytes) : (s.trackOwner path).At stack := by
  refine ⟨(trackOwner_stack path).trans hs.stack, ?_, ?_⟩
  · rw [Rewriter.Aligned, trackOwner_stack, trackOwner_encoder]
    exact hs.aligned
  · rw [← hs.seenRoot, Rewriter.trackOwner]
    split
    · rfl
    · split <;> rfl

/-- A field with a rule and more than a mebibyte of text is refused. -/
theorem long_field_fails {text : Bytes} (hs : s.At stack) (hopen : stack ≠ [])
    (hspace : name.space = [] ∨ name.space = s3XMLNamespace) (hname : name.localName ≠ [])
    (hscalar : scalarPath c.plan.responseProfile (join 47 (stack ++ [name.localName])) = true)
    (hrule : (ruleAt c (join 47 (stack ++ [name.localName]))).transform ≠ .none)
    (hsize : maxS3ControlResponseBytes < text.length) (rest : List Token) :
    ∃ e, rewriteToken c atEOF s ((textTokens text ++ [.endElement name]) ++ rest)
      (.startElement name attrs) = .error e := by
  obtain ⟨hentry, howner⟩ := scalarPath_ne hscalar
  have hne : text ≠ [] := by
    rintro rfl
    exact absurd hsize (by simp)
  have hread : ∃ e, readElementText atEOF name []
      ((textTokens text ++ [.endElement name]) ++ rest) = .error e := by
    rw [textTokens, if_neg hne]
    refine ⟨_, if_pos ?_⟩
    simpa using hsize
  obtain ⟨e, hread⟩ := hread
  show ∃ e, rewriteStart c atEOF s name attrs _ = .error e
  rw [rewriteStart_field hs hopen hspace hname hscalar hrule (trackOwner_other hentry howner),
    rewriteField, hread]
  exact ⟨_, rfl⟩

/-- **A TEXT THAT IS TOO LONG** at the start of an entry is refused, whatever was read before
    and whatever comes after. -/
theorem long_text_fails (hc : Virtualizes c) {space entry key text : Bytes}
    {rootAttrs entryAttrs keyAttrs : List Attr} {vs ds after : List Item} {leaves : List Leaf}
    (hspace : space = [] ∨ space = s3XMLNamespace)
    (hroot : expectedResponseRoot c.plan.responseProfile ≠ [])
    (hbefore : List.Forall₂ (ItemRealizes c (expectedResponseRoot c.plan.responseProfile)) vs ds)
    (hbounded : ∀ d ∈ ds, d.Bounded c (expectedResponseRoot c.plan.responseProfile))
    (hentry : entry ≠ []) (hkey : key ≠ [])
    (hgroup : groupPath c.plan.responseProfile
      (join 47 [expectedResponseRoot c.plan.responseProfile, entry]) = true)
    (hscalar : scalarPath c.plan.responseProfile
      (join 47 [expectedResponseRoot c.plan.responseProfile, entry, key]) = true)
    (hrule : (ruleAt c
      (join 47 [expectedResponseRoot c.plan.responseProfile, entry, key])).transform ≠ .none)
    (hsize : maxS3ControlResponseBytes < text.length) (out : List Token) :
    rewriteNamespaceXML c (Document.tokens
      { space := space
        root := expectedResponseRoot c.plan.responseProfile
        attrs := rootAttrs
        items := ds ++ .group entry entryAttrs (.field key keyAttrs text :: leaves) :: after })
      none ≠ .ok out := by
  obtain ⟨s, hfront, hs⟩ : ∃ s', Reads c {} (.startElement ⟨space, _⟩ rootAttrs ::
      ds.flatMap (Item.tokens space)) s' ∧ s'.At _ := front_reads hc hspace hroot hbefore hbounded
  obtain ⟨hknown, hidentity, hplain, -⟩ := groupPath_spec hgroup
  have hopened : Reads c s [.startElement ⟨space, entry⟩ entryAttrs] _ :=
    start_reads hs (List.cons_ne_nil _ _) hspace hentry hknown hidentity hplain
  have hinside : (((s.trackOwner _).opened c ⟨space, entry⟩ entryAttrs)).At
      [expectedResponseRoot c.plan.responseProfile, entry] :=
    (hs.trackOwner (join 47 [expectedResponseRoot c.plan.responseProfile, entry])).opened
  -- the reader is inside the entry when the long text comes
  have hfails : ∀ rest, ∃ e, rewriteToken c atEOF _
      ((textTokens text ++ [.endElement ⟨space, key⟩]) ++ rest)
      (.startElement ⟨space, key⟩ keyAttrs) = .error e :=
    long_field_fails hinside (List.cons_ne_nil _ _) hspace hkey hscalar hrule hsize
  have hnever := rewriteNamespaceXML_fails (hfront.append hopened)
    (hfails (leaves.flatMap (Leaf.tokens space) ++ .endElement ⟨space, entry⟩ ::
      (after.flatMap (Item.tokens space) ++
        [.endElement ⟨space, expectedResponseRoot c.plan.responseProfile⟩]))) out
  have htokens : Document.tokens
      { space := space
        root := expectedResponseRoot c.plan.responseProfile
        attrs := rootAttrs
        items := ds ++ .group entry entryAttrs (.field key keyAttrs text :: leaves) :: after } = _ :=
    show _ = (.startElement ⟨space, expectedResponseRoot c.plan.responseProfile⟩ rootAttrs ::
        ds.flatMap (Item.tokens space) ++ [.startElement ⟨space, entry⟩ entryAttrs]) ++
      .startElement ⟨space, key⟩ keyAttrs :: ((textTokens text ++ [.endElement ⟨space, key⟩]) ++
        (leaves.flatMap (Leaf.tokens space) ++ .endElement ⟨space, entry⟩ ::
          (after.flatMap (Item.tokens space) ++
            [.endElement ⟨space, expectedResponseRoot c.plan.responseProfile⟩]))) by
      simp [Document.tokens, elementTokens, Item.tokens, Leaf.tokens]
  rw [htokens]
  exact hnever

end

/-- Keys of one letter repeated are valid. -/
theorem replicate_valid (n : Nat) : validateVirtualObjectKey (List.replicate (n + 1) 97) = .ok () := by
  have honly : ∀ b ∈ List.replicate (n + 1) (97 : UInt8), b = 97 :=
    fun b hb => (List.mem_replicate.mp hb).2
  have hstring : ∀ n fuel, n ≤ fuel → validFrom fuel (List.replicate n 97) = true := by
    intro n
    induction n with
    | zero => intro fuel _; cases fuel <;> rfl
    | succ n ih =>
        intro fuel hfuel
        cases fuel with
        | zero => exact absurd hfuel (by omega)
        | succ fuel => exact ih fuel (by omega)
  have hcontrol : ∀ n, hasControl (List.replicate n 97) = false := by
    intro n
    induction n with
    | zero => rfl
    | succ n ih => simpa [List.replicate_succ, hasControl] using ih
  refine (validateVirtualObjectKey_ok_iff _).mpr ⟨?_, ⟨?_, ?_⟩, hcontrol _, ?_⟩
  · exact hstring _ _ (by rw [List.length_replicate])
  · exact fun hmem => absurd (honly _ hmem) (by decide)
  · exact fun hmem => absurd (honly _ hmem) (by decide)
  · rw [Path.NoDots, split_of_notMem (fun hmem => absurd (honly _ hmem) (by decide))]
    intro segment hsegment
    rw [List.mem_singleton.mp hsegment, List.replicate_succ]
    rfl

/-- A valid key of more than a mebibyte. -/
def longKey : Bytes := List.replicate (maxS3ControlResponseBytes + 1) 97

/-- **A KEY THAT IS TOO LONG** is refused, in a document that realizes another. -/
theorem long_key_refused :
    ∃ plan, planS3Operation listRequest (ascii "vbk") [] = .ok plan ∧
      normalizeVBucketConfig sampleHosts framedCrypto (some (framedConfig (ascii "t"))) =
        .ok (framedConfig (ascii "t")) ∧
      plan.query.get (ascii "encoding-type") = [] ∧
      DocumentRealizes (openedContext plan)
        (oneObject (ascii "vbk") longKey (identityFields.flatMap (identityField (ascii "vbk"))))
        (oneObject (ascii "abc") (ascii "t/" ++ longKey) [.charData (ascii "origin")]) ∧
      ∀ out, rewriteNamespaceXML (openedContext plan)
        (oneObject (ascii "abc") (ascii "t/" ++ longKey)
          [.charData (ascii "origin")]).tokens none ≠ .ok out := by
  obtain ⟨plan, hplan, hprofile, hbucket, hplain⟩ := listRequest_plan
  have hne : longKey ≠ [] := by
    rw [longKey, List.replicate_succ]
    exact List.cons_ne_nil _ _
  have hrealizes := oneObject_realizes hprofile hbucket hne (replicate_valid _)
  refine ⟨plan, hplan, openedContext_normalized, hplain, hrealizes, ?_⟩
  have hc := virtualizes_of_normalized (c := openedContext plan) framedCrypto_opens
    openedContext_normalized hplain
  have hroot : ascii "ListBucketResult" =
      expectedResponseRoot (openedContext plan).plan.responseProfile := hrealizes.root.1
  have hitems := hrealizes.items
  rw [hrealizes.root.1] at hitems
  obtain ⟨hname, hrest⟩ := List.forall₂_cons.mp hitems
  obtain ⟨hblank, hrest⟩ := List.forall₂_cons.mp hrest
  obtain ⟨hentry, -⟩ := List.forall₂_cons.mp hrest
  have hnothing : (oneObject (ascii "abc") [] []).Bounded (openedContext plan) :=
    oneObject_bounded (by decide) (by decide)
  cases hentry with
  | group hnameEntry hgroup hleaves howner =>
      obtain ⟨hkey, -⟩ := List.forall₂_cons.mp hleaves
      cases hkey with
      | field hnameKey hscalar htext =>
          -- the two texts differ by the prefix, so the rule is not the empty one
          have hrule : (ruleAt (openedContext plan) (join 47 [expectedResponseRoot
              (openedContext plan).plan.responseProfile, ascii "Contents",
                ascii "Key"])).transform ≠ .none := by
            intro hnone
            rw [List.cons_append, List.singleton_append, hnone] at htext
            have hlength := congrArg List.length
              (show ascii "t/" ++ longKey = longKey from htext)
            rw [List.length_append, show (ascii "t/").length = 2 from rfl] at hlength
            omega
          intro out
          rw [oneObject, hroot]
          refine long_text_fails hc (.inr rfl) (by rw [← hroot]; exact List.cons_ne_nil _ _)
            (List.Forall₂.cons hname (List.Forall₂.cons hblank List.Forall₂.nil)) ?_ hnameEntry
            hnameKey hgroup hscalar hrule ?_ out
          · rw [← hroot]
            obtain ⟨hfirst, hmore⟩ := List.forall_mem_cons.mp hnothing
            exact List.forall_mem_cons.mpr ⟨hfirst, List.forall_mem_cons.mpr
              ⟨(List.forall_mem_cons.mp hmore).1, fun _ h => nomatch h⟩⟩
          · rw [List.length_append, longKey, List.length_replicate]
            omega

end S3
