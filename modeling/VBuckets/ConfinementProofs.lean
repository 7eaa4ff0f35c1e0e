import VBuckets.ForwardingProofs
import VBuckets.RewriteProofs

/-! # Confinement of a rewritten response

    The rewriter runs on whatever an upstream sends, and its output is on its way to the
    client while the input is still being read.  So what it must not let through is stated
    of every prefix of its output, whether it later succeeds or fails: tags are nested and
    of the schema, a field that has a rule is written as the whole text of one upstream
    element became, an identity shows the virtual bucket, and nothing else of the upstream
    passes.

    `Whole` is what every round keeps: a field or an identity that was begun is complete.
    Only a round that fails stops between a start tag and its contents, and there nothing
    follows the tag. -/

namespace S3

open ByteString Url Http Mapping Xml

/-! ## What an output may be -/

/-- The paths of a schema: the known ones, and those of the two fields of an identity. -/
def schemaPath (profile : ResponseProfile) (path : Bytes) : Bool :=
  knownResponsePath profile path ||
    (responseFieldRules profile).any (fun e => e.2.identityContainer &&
      identityFields.any (fun field => path == e.1 ++ 47 :: field))

/-- Comments, directives and instructions. -/
def isMeta : Token → Bool
  | .comment _ | .directive _ | .procInst _ _ => true
  | _ => false

/-- The declaration of the namespace of S3. -/
def xmlnsDeclaration : Attr := ⟨{ localName := ascii "xmlns" }, s3XMLNamespace⟩

/-- What holds of the name and the attributes of each start tag. -/
def OfStarts (Q : Name → List Attr → Prop) (out : List Token) : Prop :=
  EachStart (fun _ name attrs _ => Q name attrs) out

/-- Every attribute is that declaration. -/
def Declared (out : List Token) : Prop :=
  OfStarts (fun _ attrs => ∀ attr ∈ attrs, attr = xmlnsDeclaration) out

/-- A text and contents that do not disagree: either may still be going on. -/
def Agrees (text contents : List Token) : Prop := text <+: contents ∨ contents <+: text

section
variable (c : ResponseContext) (failure : Option Reason) (tokens : List Token)

/-- The rounds of the loop: its variables and the tokens still to be read. -/
inductive Reaches : Rewriter → List Token → Prop
  | start : Reaches {} tokens
  | round {s s' : Rewriter} {t : Token} {rest rest' : List Token} (h : Reaches s (t :: rest))
      (hround : rewriteToken c (failure.getD { format := "EOF" }) s rest t = .ok (s', rest')) :
      Reaches s' rest'

/-- The element of the upstream that is read when `before` has been written: an element of
    the same name at the same place, with nothing but text, all of which is `raw`. -/
def UpstreamText (before : List Token) (name : Name) (raw : Bytes) : Prop :=
  ∃ s read attrs inner rest,
    Reaches c failure tokens s (.startElement name attrs :: (inner ++ .endElement name :: rest)) ∧
    s.encoder.out = before ∧
    tokens = read ++ .startElement name attrs :: (inner ++ .endElement name :: rest) ∧
    openElements read = openElements before ∧
    inner.all (fun t => !isTag t) = true ∧ raw = textOf inner

/-- What may be written from a start tag on. -/
structure TagConfined (before : List Token) (name : Name) (after : List Token) : Prop where
  schema : schemaPath c.plan.responseProfile (pathOf (openElements before) name) = true
  field : (ruleAt c (pathOf (openElements before) name)).transform ≠ .none → after ≠ [] →
    ∃ raw text, UpstreamText c failure tokens before name raw ∧
      applyResponseTextTransform c (ruleAt c (pathOf (openElements before) name)).transform
        (pathOf (openElements before) name) raw = .ok text ∧
      Agrees after (fieldContents text name)
  identity : (ruleAt c (pathOf (openElements before) name)).identityContainer = true →
    Agrees after (identityContents c.plan.bucket name)

/-- What a client may be shown. -/
structure Confined (out : List Token) : Prop where
  nested : Nested out
  noMeta : ∀ t ∈ out, isMeta t = false
  tags : EachStart (fun before name _ after => TagConfined c failure tokens before name after) out
  attributes : Declared out

/-- What a round keeps: contents that were begun are complete. -/
structure Whole (before : List Token) (name : Name) (after : List Token) : Prop where
  schema : schemaPath c.plan.responseProfile (pathOf (openElements before) name) = true
  field : (ruleAt c (pathOf (openElements before) name)).transform ≠ .none →
    ∃ raw text, UpstreamText c failure tokens before name raw ∧
      applyResponseTextTransform c (ruleAt c (pathOf (openElements before) name)).transform
        (pathOf (openElements before) name) raw = .ok text ∧ fieldContents text name <+: after
  identity : (ruleAt c (pathOf (openElements before) name)).identityContainer = true →
    identityContents c.plan.bucket name <+: after

end

/-! ## The tables -/

/-- An identity is no text, and its fields have no rules. -/
theorem identity_rules (profile : ResponseProfile) : ∀ e ∈ responseFieldRules profile,
    e.2.identityContainer = true → e.2.transform = .none ∧
      ∀ field ∈ identityFields, responseFieldRuleForPath profile (e.1 ++ 47 :: field) = none := by
  unfold responseFieldRuleForPath responseFieldRules identityFields
  cases profile <;>
  · dsimp only
    repeat rw [ascii_ofList]
    decide +kernel

section
variable {c : ResponseContext} {path : Bytes}

/-- A path with a rule is an entry of the table. -/
theorem ruleAt_mem (h : ruleAt c path ≠ {}) :
    (path, ruleAt c path) ∈ responseFieldRules c.plan.responseProfile := by
  rw [ruleAt, responseFieldRuleForPath] at h ⊢
  cases hlookup : (responseFieldRules c.plan.responseProfile).lookup path with
  | none =>
      rw [hlookup] at h
      exact absurd rfl h
  | some rule =>
      obtain ⟨before, after, htable, -⟩ := List.lookup_eq_some_iff.mp hlookup
      rw [htable]
      simp

theorem identity_mem (h : (ruleAt c path).identityContainer = true) :
    (path, ruleAt c path) ∈ responseFieldRules c.plan.responseProfile := by
  refine ruleAt_mem fun hrule => ?_
  rw [hrule] at h
  cases h

theorem transform_of_identity (h : (ruleAt c path).identityContainer = true) :
    (ruleAt c path).transform = .none :=
  (identity_rules _ _ (identity_mem h) h).1

theorem ruleAt_identityField (h : (ruleAt c path).identityContainer = true) {field : Bytes}
    (hfield : field ∈ identityFields) : ruleAt c (path ++ 47 :: field) = {} := by
  rw [ruleAt, (identity_rules _ _ (identity_mem h) h).2 field hfield]
  rfl

theorem schemaPath_identityField (h : (ruleAt c path).identityContainer = true) {field : Bytes}
    (hfield : field ∈ identityFields) :
    schemaPath c.plan.responseProfile (path ++ 47 :: field) = true := by
  rw [schemaPath, Bool.or_eq_true, List.any_eq_true]
  refine .inr ⟨_, identity_mem h, ?_⟩
  rw [Bool.and_eq_true, List.any_eq_true]
  exact ⟨h, field, hfield, beq_self_eq_true _⟩

theorem schemaPath_of_known (h : knownResponsePath c.plan.responseProfile path = true) :
    schemaPath c.plan.responseProfile path = true := by
  rw [schemaPath, h, Bool.true_or]

end

theorem pathOf_append (opened : List Name) (name child : Name) :
    pathOf (opened ++ [name]) child = pathOf opened name ++ 47 :: child.localName := by
  rw [pathOf, pathOf, List.map_append, List.append_assoc]
  cases opened with
  | nil => rfl
  | cons n opened =>
      rw [List.map_cons, List.cons_append, List.cons_append, join_cons, join_cons]
      simp

/-- What is nested has the same elements open in either sense. -/
theorem openElements_of_openTags {ts : List Token} {opened : List Name}
    (h : openTags ts = some opened) : openElements ts = opened := by
  -- generalised to any elements open at the start
  have hfold : ∀ (ts : List Token) (from_ opened : List Name),
      ts.foldlM nest from_ = some opened → ts.foldl openStep from_ = opened := by
    intro ts
    induction ts with
    | nil =>
        intro from_ opened h
        exact Option.some.inj h
    | cons t ts ih =>
        intro from_ opened h
        rw [List.foldlM_cons] at h
        obtain ⟨next, hnext, h⟩ := Option.bind_eq_some_iff.mp h
        have hstep : openStep from_ t = next := by
          cases t with
          | endElement name =>
              rw [nest] at hnext
              split at hnext
              · exact Option.some.inj hnext
              · exact nomatch hnext
          | _ => exact Option.some.inj hnext
        rw [List.foldl_cons, hstep]
        exact ih next opened h
  exact hfold ts [] opened h

/-! ## What a round keeps -/

section
variable {c : ResponseContext} {failure : Option Reason} {tokens : List Token}

/-- Between the tags of a field nothing opens or closes. -/
theorem foldl_textual {inner : List Token} (h : inner.all (fun t => !isTag t) = true)
    (opened : List Name) : inner.foldl openStep opened = opened := by
  induction inner with
  | nil => rfl
  | cons t inner ih =>
      rw [List.all_cons, Bool.and_eq_true] at h
      have ht : openStep opened t = opened := by
        cases t with
        | startElement | endElement => exact nomatch h.1
        | _ => rfl
      rw [List.foldl_cons, ht]
      exact ih h.2

/-- What a round reads and what it writes open the same elements. -/
theorem Move.read {e e' : Encoder} {ts : List Token} (h : Move c e ts e') :
    ts.foldl openStep e.tags = e'.tags := by
  cases h with
  | skipped hclose => exact hclose e.tags _
  | opened hknown hplain => rfl
  | identity hknown hrule hclose => exact hclose e.tags _
  | field hknown hrule htext happly =>
      rw [List.foldl_cons, List.foldl_append, foldl_textual htext]
      exact List.dropLast_concat
  | closed htags =>
      rw [htags]
      exact List.dropLast_concat
  | text => rfl
  | dropped ht =>
      exact foldl_textual (by simp [ht]) e.tags

/-- The tags of a round are nested in those that are open. -/
theorem Move.nested {e e' : Encoder} {ts : List Token} (h : Move c e ts e')
    (hopen : openTags e.out = some e.tags) : openTags e'.out = some e'.tags := by
  have happend : ∀ more, openTags (e.out ++ more) = more.foldlM nest e.tags := by
    intro more
    rw [openTags_append, hopen]
    rfl
  have hclose : ∀ (tags : List Name) (name : Name),
      nest (tags ++ [name]) (.endElement name) = some tags := by
    intro tags name
    rw [nest, List.getLast?_concat, if_pos rfl, List.dropLast_concat]
  -- what a round writes is balanced, or opens or closes exactly one element
  cases h with
  | skipped hclose => exact hopen
  | opened hknown hplain => exact happend _
  | identity hknown hrule hinner =>
      rw [happend]
      simp [identityContents, identityFields, identityField, nest]
  | field hknown hrule htext happly =>
      rw [happend]
      simp [fieldContents, nest]
  | closed htags =>
      rw [happend, htags]
      simp [hclose]
  | text => exact happend _
  | dropped ht => exact hopen

/-- A round adds to the output, and only tags and text. -/
theorem Move.adds {e e' : Encoder} {ts : List Token} (h : Move c e ts e') :
    ∃ more, e'.out = e.out ++ more ∧ ∀ t ∈ more, isMeta t = false := by
  cases h with
  | skipped hclose => exact ⟨[], (List.append_nil _).symm, by simp⟩
  | opened hknown hplain => exact ⟨_, rfl, by simp [isMeta]⟩
  | identity hknown hrule hclose =>
      exact ⟨_, rfl, by simp [identityContents, identityFields, identityField, isMeta]⟩
  | field hknown hrule htext happly => exact ⟨_, rfl, by simp [fieldContents, isMeta]⟩
  | closed | text => exact ⟨_, rfl, by simp [isMeta]⟩
  | dropped ht => exact ⟨[], (List.append_nil _).symm, by simp⟩

/-- Contents that are complete stay so. -/
theorem Whole.extend {before after : List Token} {name : Name} (more : List Token)
    (h : Whole c failure tokens before name after) :
    Whole c failure tokens before name (after ++ more) := by
  refine ⟨h.schema, fun hrule => ?_, fun hrule => ?_⟩
  · obtain ⟨raw, text, hraw, happly, hafter⟩ := h.field hrule
    exact ⟨raw, text, hraw, happly, hafter.trans (List.prefix_append _ _)⟩
  · exact (h.identity hrule).trans (List.prefix_append _ _)

/-- A start tag without a rule needs nothing after it. -/
theorem whole_of_plain {before after : List Token} {name : Name} {path : Bytes}
    (hpath : pathOf (openElements before) name = path)
    (hschema : schemaPath c.plan.responseProfile path = true)
    (htransform : (ruleAt c path).transform = .none)
    (hidentity : (ruleAt c path).identityContainer = false) :
    Whole c failure tokens before name after := by
  subst hpath
  refine ⟨hschema, fun h => absurd htransform h, fun h => ?_⟩
  rw [hidentity] at h
  exact nomatch h

/-- The two fields of an identity. -/
theorem whole_identityContents {before : List Token} {name : Name} {path : Bytes}
    {opened : List Name} (hbefore : openElements before = opened ++ [name])
    (hpath : pathOf opened name = path) (hrule : (ruleAt c path).identityContainer = true) :
    EachStart (fun b n _ a => Whole c failure tokens (before ++ b) n a)
      (identityContents c.plan.bucket name) := by
  -- wherever the identity itself is what is open, a field of it may stand
  have hfield : ∀ (b after : List Token) (field : Bytes), field ∈ identityFields →
      b.foldl openStep (opened ++ [name]) = opened ++ [name] →
      Whole c failure tokens (before ++ b) { localName := field } after := by
    intro b after field hmem hb
    refine whole_of_plain ?_ (schemaPath_identityField hrule hmem) ?_ ?_
    · rw [openElements_append, hbefore, hb, pathOf_append, hpath]
    · rw [ruleAt_identityField hrule hmem]
    · rw [ruleAt_identityField hrule hmem]
  rw [identityContents]
  refine EachStart.append ?_ (eachStart_of_forall_ne (by simp))
  show EachStart _ (identityField c.plan.bucket (ascii "ID") ++
    identityField c.plan.bucket (ascii "DisplayName"))
  refine EachStart.append ?_ ?_
  · refine eachStart_cons_start.mpr ⟨?_, eachStart_of_forall_ne (by simp)⟩
    exact hfield [] _ _ (by decide) rfl
  · refine eachStart_cons_start.mpr ⟨?_, eachStart_of_forall_ne (by simp)⟩
    refine hfield _ _ _ (by decide) ?_
    simp [identityField, openStep]

/-- The start tags a round writes have their contents. -/
theorem Move.tags {s : Rewriter} {e' : Encoder} {t : Token} {inner rest read : List Token}
    (h : Move c s.encoder (t :: inner) e')
    (hreach : Reaches c failure tokens s (t :: (inner ++ rest)))
    (hread : tokens = read ++ t :: (inner ++ rest))
    (hsame : openElements read = openElements s.encoder.out)
    (hopen : openElements s.encoder.out = s.encoder.tags)
    (htags : EachStart (fun b n _ a => Whole c failure tokens b n a) s.encoder.out) :
    EachStart (fun b n _ a => Whole c failure tokens b n a) e'.out := by
  -- the tags written before, and those of this round
  have happend : ∀ more,
      EachStart (fun b n _ a => Whole c failure tokens (s.encoder.out ++ b) n a) more →
      EachStart (fun b n _ a => Whole c failure tokens b n a) (s.encoder.out ++ more) :=
    fun more hmore => EachStart.append
      (htags.mono fun before name _ after hwhole => hwhole.extend more) hmore
  have hpath : ∀ name, pathOf (openElements (s.encoder.out ++ [])) name =
      pathOf s.encoder.tags name := by
    intro name
    rw [List.append_nil, hopen]
  generalize hts : t :: inner = ts at h
  cases h with
  | skipped hclose => exact htags
  | opened hknown hplain =>
      refine happend _ (eachStart_cons_start.mpr ⟨?_, eachStart_nil⟩)
      exact whole_of_plain (hpath _) (schemaPath_of_known hknown) hplain.2 hplain.1
  | @identity name attrs _ hknown hrule hclose =>
      refine happend _ (eachStart_cons_start.mpr ⟨⟨?_, ?_, ?_⟩, ?_⟩)
      · rw [hpath]
        exact schemaPath_of_known hknown
      · intro htransform
        rw [hpath] at htransform
        exact absurd (transform_of_identity hrule) htransform
      · exact fun _ => List.prefix_rfl
      · have hbefore : openElements (s.encoder.out ++
            [.startElement name (filterSafeXMLAttributes c attrs)]) =
              s.encoder.tags ++ [name] := by
          rw [openElements_append, hopen]
          rfl
        have hfields : EachStart (fun b n _ p => Whole c failure tokens (_ ++ b) n p) _ :=
          whole_identityContents hbefore rfl hrule
        refine hfields.mono fun b n a p hwhole => ?_
        rw [List.append_assoc] at hwhole
        exact hwhole
  | @field name attrs between text hknown hrule htext happly =>
      refine happend _ (eachStart_cons_start.mpr
        ⟨⟨?_, fun _ => ?_, ?_⟩, eachStart_of_forall_ne (by simp [fieldContents])⟩)
      · rw [hpath]
        exact schemaPath_of_known hknown
      · obtain ⟨rfl, rfl⟩ := List.cons.inj hts
        rw [List.append_assoc] at hreach hread
        rw [hpath, List.append_nil]
        exact ⟨textOf between, text,
          ⟨s, read, attrs, between, rest, hreach, rfl, hread, hsame, htext, rfl⟩, happly,
          List.prefix_rfl⟩
      · intro hidentity
        rw [hpath, hrule] at hidentity
        exact nomatch hidentity
  | closed | text => exact happend _ (eachStart_of_forall_ne (by simp))
  | dropped ht => exact htags

variable (c failure tokens) in
/-- What holds before every round. -/
structure Kept (s : Rewriter) (rest : List Token) : Prop where
  aligned : s.Aligned
  read : ∃ read, tokens = read ++ rest ∧ openElements read = s.encoder.tags
  nested : openTags s.encoder.out = some s.encoder.tags
  noMeta : ∀ t ∈ s.encoder.out, isMeta t = false
  tags : EachStart (fun b n _ a => Whole c failure tokens b n a) s.encoder.out

theorem Reaches.kept {s : Rewriter} {rest : List Token} (h : Reaches c failure tokens s rest) :
    Kept c failure tokens s rest := by
  induction h with
  | start => exact ⟨rfl, ⟨[], rfl, rfl⟩, rfl, by simp, eachStart_nil⟩
  | @round s s' t rest rest' hreach hround ih =>
      have hyields : Yields _ _ (rewriteToken c (failure.getD { format := "EOF" }) s rest t) :=
        rewriteToken_yields t rest ih.aligned
      rw [hround] at hyields
      obtain ⟨haligned, inner, rfl, hmove⟩ := hyields
      obtain ⟨read, hread, hsame⟩ := ih.read
      have hopen := openElements_of_openTags ih.nested
      refine ⟨haligned, ⟨read ++ t :: inner, ?_, ?_⟩, hmove.nested ih.nested, ?_, ?_⟩
      · rw [hread, List.append_assoc]
        rfl
      · rw [openElements_append, hsame]
        exact hmove.read
      · obtain ⟨more, hmore, hmeta⟩ := hmove.adds
        rw [hmore]
        intro t' ht'
        rcases List.mem_append.mp ht' with ht' | ht'
        · exact ih.noMeta t' ht'
        · exact hmeta t' ht'
      · exact hmove.tags hreach hread (hsame.trans hopen.symm) hopen ih.tags

/-! ## Attributes -/

variable (c) in
/-- The start tags that are written: those that pass the checks, at a known path. -/
def Admits (s : Rewriter) (name : Name) : Prop :=
  checkStart c s name = .ok () ∧
    knownResponsePath c.plan.responseProfile (join 47 (s.stack ++ [name.localName])) = true ∧
    name.localName ≠ []

/-- An attribute with the local name and the value of the declaration, but in a namespace
    of its own. -/
def Disguised (attr : Attr) : Prop :=
  attr.name.localName = ascii "xmlns" ∧ attr.value = s3XMLNamespace ∧ attr.name.space ≠ []

/-- The filter lets the declaration through and, unless its value is one of the backend's,
    what is disguised as it. -/
theorem filterSafe_iff (attrs : List Attr) :
    (∀ attr ∈ filterSafeXMLAttributes c attrs, attr = xmlnsDeclaration) ↔
      ∀ attr ∈ attrs, Disguised attr → containsSensitiveBackendValue c s3XMLNamespace = true := by
  constructor
  · rintro h attr hmem ⟨hlocal, hvalue, hspace⟩
    by_contra hsafe
    have hkept : attr ∈ filterSafeXMLAttributes c attrs := by
      refine List.mem_filter.mpr ⟨hmem, ?_⟩
      simpa [hlocal, hvalue] using hsafe
    exact hspace (by rw [h attr hkept]; rfl)
  · intro h attr hkept
    obtain ⟨hmem, hsafe⟩ := List.mem_filter.mp hkept
    simp only [Bool.and_eq_true, Bool.not_eq_true', beq_iff_eq] at hsafe
    obtain ⟨⟨hsensitive, hlocal⟩, hvalue⟩ := hsafe
    obtain ⟨⟨space, localName⟩, value⟩ := attr
    obtain rfl : localName = ascii "xmlns" := hlocal
    obtain rfl : value = s3XMLNamespace := hvalue
    by_cases hspace : space = []
    · rw [hspace]
      rfl
    · have hcontains := h _ hmem ⟨rfl, rfl, hspace⟩
      rw [hsensitive] at hcontains
      exact nomatch hcontains

section
variable {atEnd : Reason} {s : Rewriter} {name : Name}

/-- A start tag that is not admitted is not written. -/
theorem rewriteStart_refused (attrs : List Attr) (rest : List Token) (h : ¬ Admits c s name) :
    Yields (· = s.encoder.out) (fun r => r.1.encoder.out = s.encoder.out)
      (rewriteStart c atEnd s name attrs rest) := by
  refine (s.check_yields (checkStart c s name)).bind fun _ hcheck => ?_
  simp only []
  split
  · next hknown =>
      have hname : name.localName = [] := by
        by_contra hname
        exact h ⟨hcheck, hknown, hname⟩
      rw [rewriteKnown, Rewriter.encodeStart, Encoder.writeStart, if_pos hname]
      exact congrArg Encoder.out (trackOwner_encoder _)
  · split
    · exact rfl
    · split
      · exact rfl
      · exact rfl

/-- A start tag that is admitted is written, and stays. -/
theorem rewriteStart_admitted (attrs : List Attr) (rest : List Token) (hs : s.Aligned)
    (h : Admits c s name) :
    Yields (· = s.encoder.out ++ [safeStart c name attrs])
      (fun r => r.1.Aligned ∧ s.encoder.out ++ [safeStart c name attrs] <+: r.1.encoder.out)
      (rewriteStart c atEnd s name attrs rest) := by
  obtain ⟨hcheck, hknown, hname⟩ := h
  rw [rewriteStart, hcheck]
  show Yields _ _ (if knownResponsePath c.plan.responseProfile
    (join 47 (s.stack ++ [name.localName])) = true then _ else _)
  rw [if_pos hknown]
  rw [path_eq hs] at hknown ⊢
  refine (rewriteKnown_yields (s := { s with seenRoot := true }) attrs rest hs hname hknown).mono
    (fun _ => id) ?_
  rintro r ⟨haligned, -, hout⟩
  exact ⟨haligned, hout⟩

end

section
variable {Q : Name → List Attr → Prop}

theorem ofStarts_append {out more : List Token} (hout : OfStarts Q out)
    (hmore : OfStarts Q more) : OfStarts Q (out ++ more) :=
  EachStart.append hout hmore

theorem ofStarts_start {name : Name} {attrs : List Attr} {after : List Token}
    (hattrs : Q name (filterSafeXMLAttributes c attrs)) (hafter : OfStarts Q after) :
    OfStarts Q (safeStart c name attrs :: after) :=
  eachStart_cons_start.mpr ⟨hattrs, hafter⟩

/-- The start tags of a round are the one it reads and those of an identity's fields. -/
theorem Move.ofStarts {e e' : Encoder} {t : Token} {inner : List Token}
    (h : Move c e (t :: inner) e') (hidentity : ∀ field, Q { localName := field } [])
    (hstart : ∀ name attrs, t = .startElement name attrs →
      Q name (filterSafeXMLAttributes c attrs))
    (hout : OfStarts Q e.out) : OfStarts Q e'.out := by
  generalize hts : t :: inner = ts at h
  cases h with
  | skipped hclose => exact hout
  | opened hknown hplain =>
      exact ofStarts_append hout
        (ofStarts_start (hstart _ _ (List.cons.inj hts).1) eachStart_nil)
  | identity hknown hrule hclose =>
      refine ofStarts_append hout (ofStarts_start (hstart _ _ (List.cons.inj hts).1) ?_)
      refine ofStarts_append ?_ (eachStart_of_forall_ne (by simp))
      have hfield : ∀ field, OfStarts Q (identityField c.plan.bucket field) := fun field =>
        eachStart_cons_start.mpr ⟨hidentity field, eachStart_of_forall_ne (by simp)⟩
      exact ofStarts_append (hfield _) (ofStarts_append (hfield _) eachStart_nil)
  | field hknown hrule htext happly =>
      exact ofStarts_append hout (ofStarts_start (hstart _ _ (List.cons.inj hts).1)
        (eachStart_of_forall_ne (by simp [fieldContents])))
  | closed | text => exact ofStarts_append hout (eachStart_of_forall_ne (by simp))
  | dropped ht => exact hout

theorem Reaches.ofStarts {s : Rewriter} {rest : List Token}
    (h : Reaches c failure tokens s rest) (hidentity : ∀ field, Q { localName := field } [])
    (hstarts : ∀ s name attrs rest, Reaches c failure tokens s (.startElement name attrs :: rest) →
      Admits c s name → Q name (filterSafeXMLAttributes c attrs)) :
    OfStarts Q s.encoder.out := by
  induction h with
  | start => exact eachStart_nil
  | @round s s' t rest rest' hreach hround ih =>
      have hmove : Yields _ _ (rewriteToken c (failure.getD { format := "EOF" }) s rest t) :=
        rewriteToken_yields t rest hreach.kept.aligned
      by_cases hadm : ∀ name attrs, t = .startElement name attrs → Admits c s name
      · rw [hround] at hmove
        obtain ⟨-, inner, -, hmove⟩ := hmove
        refine hmove.ofStarts hidentity (fun name attrs ht => ?_) ih
        subst ht
        exact hstarts s name attrs rest hreach (hadm _ _ rfl)
      · push Not at hadm
        obtain ⟨name, attrs, rfl, hrefused⟩ := hadm
        have hsame : Yields _ _ (rewriteToken c (failure.getD { format := "EOF" }) s rest
          (.startElement name attrs)) := rewriteStart_refused attrs rest hrefused
        rw [hround] at hsame
        rw [show s'.encoder.out = s.encoder.out from hsame]
        exact ih

end

variable (c failure tokens) in
/-- No start tag that is written carries a disguised attribute, unless the namespace of S3
    has a value of the backend in it: then no declaration passes either. -/
def Undisguised : Prop :=
  ∀ s name attrs rest, Reaches c failure tokens s (.startElement name attrs :: rest) →
    Admits c s name → ∀ attr ∈ attrs, Disguised attr →
      containsSensitiveBackendValue c s3XMLNamespace = true

theorem Reaches.declared {s : Rewriter} {rest : List Token}
    (h : Reaches c failure tokens s rest) (hplain : Undisguised c failure tokens) :
    Declared s.encoder.out :=
  h.ofStarts (by simp) fun s name attrs rest hreach hadm =>
    (filterSafe_iff attrs).mpr (hplain s name attrs rest hreach hadm)

/-! ## Whole runs -/

variable (c failure tokens) in
/-- What a run has written when it stops: all of its rounds, or all before one that fails. -/
inductive Stops : List Token → Prop
  | between {s : Rewriter} {rest : List Token} (h : Reaches c failure tokens s rest) :
      Stops s.encoder.out
  | within {s : Rewriter} {t : Token} {rest : List Token} {f : RewriteFailure}
      (h : Reaches c failure tokens s (t :: rest))
      (hround : rewriteToken c (failure.getD { format := "EOF" }) s rest t = .error f) :
      Stops f.out

theorem Reaches.reads {s : Rewriter} {t : Token} {rest : List Token}
    {r : Rewriter × List Token} (h : Reaches c failure tokens s (t :: rest))
    (hround : rewriteToken c (failure.getD { format := "EOF" }) s rest t = .ok r) :
    r.2.length ≤ rest.length := by
  have hyields : Yields _ _ (rewriteToken c (failure.getD { format := "EOF" }) s rest t) :=
    rewriteToken_yields t rest h.kept.aligned
  rw [hround] at hyields
  obtain ⟨-, inner, hrest, -⟩ := hyields
  rw [hrest, List.length_append]
  omega

/-- Each round reads a token, so the rounds suffice. -/
theorem rewriteLoop_stops {rounds : Nat} {s : Rewriter} {ts : List Token}
    (h : Reaches c failure tokens s ts) (hrounds : ts.length ≤ rounds) :
    Yields (Stops c failure tokens) (fun s' => Stops c failure tokens s'.encoder.out)
      (rewriteLoop c failure rounds s ts) := by
  induction rounds generalizing s ts with
  | zero =>
      obtain rfl := List.eq_nil_of_length_eq_zero (Nat.le_zero.mp hrounds)
      cases failure with
      | none | some => exact .between h
  | succ rounds ih =>
      cases ts with
      | nil =>
          cases failure with
          | none | some => exact .between h
      | cons t rest =>
          rw [rewriteLoop]
          cases hround : rewriteToken c (failure.getD { format := "EOF" }) s rest t with
          | error f => exact .within h hround
          | ok r =>
              have hlength := h.reads hround
              rw [List.length_cons] at hrounds
              exact ih (.round h hround) (by omega)

/-- What a loop has written. -/
def written : Except RewriteFailure Rewriter → List Token
  | .ok s => s.encoder.out
  | .error f => f.out

theorem rewritten_eq :
    rewritten c tokens failure = written (rewriteLoop c failure tokens.length {} tokens) := by
  rw [rewritten, rewriteNamespaceXML]
  cases rewriteLoop c failure tokens.length {} tokens with
  | error f => rfl
  | ok s =>
      simp only [bind, Except.bind]
      cases checkDocument c s with
      | error | ok => rfl

theorem yields_written {P : List Token → Prop} {r : Except RewriteFailure Rewriter} :
    Yields P (fun s => P s.encoder.out) r ↔ P (written r) := by
  cases r with
  | error | ok => exact Iff.rfl

theorem rewritten_stops : Stops c failure tokens (rewritten c tokens failure) := by
  rw [rewritten_eq]
  exact yields_written.mp (rewriteLoop_stops .start le_rfl)

/-- The output of later rounds extends that of earlier ones. -/
theorem rewriteLoop_extends {rounds : Nat} {s : Rewriter} {ts : List Token} (hs : s.Aligned) :
    s.encoder.out <+: written (rewriteLoop c failure rounds s ts) := by
  rw [← yields_written (P := fun out => s.encoder.out <+: out)]
  induction rounds generalizing s ts with
  | zero =>
      cases ts with
      | nil => cases failure <;> exact List.prefix_rfl
      | cons t rest => exact List.prefix_rfl
  | succ rounds ih =>
      cases ts with
      | nil => cases failure <;> exact List.prefix_rfl
      | cons t rest =>
          rw [rewriteLoop]
          refine Yields.bind ((rewriteToken_yields t rest hs).mono ?_ (fun _ => id)) ?_
          · rintro out (rfl | ⟨name, attrs, -, -, rfl⟩)
            · exact List.prefix_rfl
            · exact List.prefix_append _ _
          · rintro ⟨s', rest'⟩ ⟨haligned, inner, -, hmove⟩
            obtain ⟨more, hmore, -⟩ := hmove.adds
            have hpre : s.encoder.out <+: s'.encoder.out := ⟨more, hmore.symm⟩
            exact (ih haligned).mono (fun _ => hpre.trans) (fun _ => hpre.trans)

/-- A run that is resumed at one of its rounds writes what it writes. -/
theorem Reaches.resumes {s : Rewriter} {rest : List Token}
    (h : Reaches c failure tokens s rest) :
    ∃ rounds, rest.length ≤ rounds ∧
      written (rewriteLoop c failure rounds s rest) = rewritten c tokens failure := by
  induction h with
  | start => exact ⟨tokens.length, le_rfl, rewritten_eq.symm⟩
  | @round s s' t rest rest' hreach hround ih =>
      obtain ⟨rounds, hrounds, hwritten⟩ := ih
      obtain ⟨n, rfl⟩ : ∃ n, rounds = n + 1 := by
        rw [List.length_cons] at hrounds
        exact ⟨rounds - 1, by omega⟩
      refine ⟨n, ?_, ?_⟩
      · have hlength : rest'.length ≤ rest.length := hreach.reads hround
        rw [List.length_cons] at hrounds
        omega
      · rw [rewriteLoop, hround] at hwritten
        exact hwritten

/-- An admitted start tag is part of what is written. -/
theorem Reaches.start_written {s : Rewriter} {name : Name} {attrs : List Attr}
    {rest : List Token} (h : Reaches c failure tokens s (.startElement name attrs :: rest))
    (hadm : Admits c s name) :
    s.encoder.out ++ [safeStart c name attrs] <+: rewritten c tokens failure := by
  obtain ⟨rounds, hrounds, hwritten⟩ := h.resumes
  obtain ⟨n, rfl⟩ : ∃ n, rounds = n + 1 := by
    rw [List.length_cons] at hrounds
    exact ⟨rounds - 1, by omega⟩
  rw [← hwritten, ← yields_written (P := fun out => _ <+: out), rewriteLoop]
  refine Yields.bind ((rewriteStart_admitted attrs rest h.kept.aligned hadm).mono ?_
    (fun _ => id)) ?_
  · rintro out rfl
    exact List.prefix_rfl
  · rintro ⟨s', rest'⟩ ⟨haligned, hout⟩
    exact yields_written.mpr (hout.trans (rewriteLoop_extends haligned))

/-- A round that fails at anything else has written nothing. -/
theorem Reaches.fails_before {s : Rewriter} {t : Token} {rest : List Token} {f : RewriteFailure}
    (h : Reaches c failure tokens s (t :: rest))
    (hround : rewriteToken c (failure.getD { format := "EOF" }) s rest t = .error f)
    (hadm : ¬ ∃ name attrs, t = .startElement name attrs ∧ Admits c s name) :
    f.out = s.encoder.out := by
  have hyields : Yields _ _ (rewriteToken c (failure.getD { format := "EOF" }) s rest t) :=
    rewriteToken_yields t rest h.kept.aligned
  rw [hround] at hyields
  rcases hyields with hout | ⟨name, attrs, rfl, -, -⟩
  · exact hout
  · have hrefused : ¬ Admits c s name := fun hname => hadm ⟨name, attrs, rfl, hname⟩
    have hsame : Yields _ _ (rewriteToken c (failure.getD { format := "EOF" }) s rest
      (.startElement name attrs)) := rewriteStart_refused attrs rest hrefused
    rw [hround] at hsame
    exact hsame

variable (c failure tokens) in
/-- All that is written: the output of some round, with at most one admitted start tag after
    it. -/
theorem rewritten_shape :
    (∃ s rest, Reaches c failure tokens s rest ∧ rewritten c tokens failure = s.encoder.out) ∨
      ∃ s name attrs rest, Reaches c failure tokens s (.startElement name attrs :: rest) ∧
        Admits c s name ∧
        rewritten c tokens failure = s.encoder.out ++ [safeStart c name attrs] := by
  have hstops : Stops c failure tokens (rewritten c tokens failure) := rewritten_stops
  generalize rewritten c tokens failure = all at hstops
  cases hstops with
  | between hreach => exact .inl ⟨_, _, hreach, rfl⟩
  | @within s t rest f hreach hround =>
      by_cases hadm : ∃ name attrs, t = .startElement name attrs ∧ Admits c s name
      · obtain ⟨name, attrs, rfl, hadm⟩ := hadm
        have hfailed : Yields _ _ (rewriteToken c (failure.getD { format := "EOF" }) s rest
          (.startElement name attrs)) :=
            rewriteStart_admitted attrs rest hreach.kept.aligned hadm
        rw [hround] at hfailed
        exact .inr ⟨s, name, attrs, rest, hreach, hadm, hfailed⟩
      · exact .inl ⟨s, _, hreach, hreach.fails_before hround hadm⟩

/-- What holds of the start tags of an output is what holds of those that are admitted. -/
theorem rewritten_ofStarts_iff {Q : Name → List Attr → Prop}
    (hidentity : ∀ field, Q { localName := field } []) :
    OfStarts Q (rewritten c tokens failure) ↔ ∀ s name attrs rest,
      Reaches c failure tokens s (.startElement name attrs :: rest) → Admits c s name →
        Q name (filterSafeXMLAttributes c attrs) := by
  constructor
  · intro h s name attrs rest hreach hadm
    obtain ⟨more, hmore⟩ := hreach.start_written hadm
    exact h s.encoder.out name _ more (by rw [← hmore, List.append_assoc]; rfl)
  · intro hstarts
    rcases rewritten_shape c failure tokens with
      ⟨s, rest, hreach, hall⟩ | ⟨s, name, attrs, rest, hreach, hadm, hall⟩
    · rw [hall]
      exact hreach.ofStarts hidentity hstarts
    · rw [hall]
      exact ofStarts_append (hreach.ofStarts hidentity hstarts)
        (ofStarts_start (hstarts s name attrs rest hreach hadm) eachStart_nil)

/-! ## Confinement -/

theorem agrees_of_prefix {text all contents : List Token} (htext : text <+: all)
    (hcontents : contents <+: all) : Agrees text contents :=
  List.prefix_or_prefix_of_prefix htext hcontents

/-- What is cut off anywhere from an output whose contents are complete, but perhaps for
    its last tag, is confined. -/
theorem confined_of_prefix {all out : List Token} (hnested : Nested all)
    (hmeta : ∀ t ∈ all, isMeta t = false)
    (htags : EachStart (fun b n _ a => Whole c failure tokens b n a ∨ (a = [] ∧
      schemaPath c.plan.responseProfile (pathOf (openElements b) n) = true)) all)
    (hdeclared : Declared all) (hout : out <+: all) : Confined c failure tokens out := by
  obtain ⟨more, rfl⟩ := hout
  refine ⟨hnested.of_append, fun t ht => hmeta t (List.mem_append_left _ ht), ?_, ?_⟩
  · intro before name attrs after hsplit
    have hafter : out ++ more = before ++ .startElement name attrs :: (after ++ more) := by
      rw [hsplit, List.append_assoc]
      rfl
    rcases htags before name attrs _ hafter with hwhole | ⟨hnil, hschema⟩
    · refine ⟨hwhole.schema, fun hrule _ => ?_, fun hrule => ?_⟩
      · obtain ⟨raw, text, hraw, happly, hcontents⟩ := hwhole.field hrule
        exact ⟨raw, text, hraw, happly, agrees_of_prefix (List.prefix_append _ _) hcontents⟩
      · exact agrees_of_prefix (List.prefix_append _ _) (hwhole.identity hrule)
    · obtain ⟨rfl, rfl⟩ := List.append_eq_nil_iff.mp hnil
      exact ⟨hschema, fun _ hne => absurd rfl hne, fun _ => .inl (List.nil_prefix)⟩
  · intro before name attrs after hsplit
    exact hdeclared before name attrs (after ++ more) (by rw [hsplit, List.append_assoc]; rfl)

theorem Reaches.confined {s : Rewriter} {rest out : List Token}
    (h : Reaches c failure tokens s rest) (hplain : Undisguised c failure tokens)
    (hout : out <+: s.encoder.out) : Confined c failure tokens out := by
  have hkept := h.kept
  refine confined_of_prefix ?_ hkept.noMeta (hkept.tags.mono fun _ _ _ _ => .inl)
    (h.declared hplain) hout
  rw [Nested, hkept.nested]
  rfl

/-- The start tag of an element that could not be read. -/
theorem Reaches.confined_start {s : Rewriter} {name : Name} {attrs : List Attr}
    {rest out : List Token} (h : Reaches c failure tokens s (.startElement name attrs :: rest))
    (hplain : Undisguised c failure tokens) (hadm : Admits c s name)
    (hout : out <+: s.encoder.out ++ [safeStart c name attrs]) :
    Confined c failure tokens out := by
  have hkept := h.kept
  have hopen := openElements_of_openTags hkept.nested
  have hattrs := (filterSafe_iff attrs).mpr (hplain s name attrs rest h hadm)
  refine confined_of_prefix ?_ ?_ ?_
    (ofStarts_append (h.declared hplain) (ofStarts_start hattrs eachStart_nil)) hout
  · rw [Nested, openTags_append, hkept.nested]
    rfl
  · intro t ht
    rcases List.mem_append.mp ht with ht | ht
    · exact hkept.noMeta t ht
    · obtain rfl := List.mem_singleton.mp ht
      rfl
  · refine EachStart.append (hkept.tags.mono fun _ _ _ _ hwhole => .inl (hwhole.extend _)) ?_
    refine eachStart_cons_start.mpr ⟨.inr ⟨rfl, ?_⟩, eachStart_nil⟩
    rw [List.append_nil, hopen, ← path_eq hkept.aligned]
    exact schemaPath_of_known hadm.2.1

/-- **CONFINEMENT**: whatever the upstream sends and wherever it stops, every prefix of
    what a client is sent is confined, exactly when no tag that is written carries an
    attribute disguised as the declaration. -/
theorem rewritten_confined_iff (c : ResponseContext) (failure : Option Reason)
    (tokens : List Token) :
    (∀ out, out <+: rewritten c tokens failure → Confined c failure tokens out) ↔
      Undisguised c failure tokens := by
  constructor
  · intro hconfined s name attrs rest hreach hadm
    refine (filterSafe_iff attrs).mp ?_
    have hattributes := (hconfined _ (hreach.start_written hadm)).attributes
    exact hattributes s.encoder.out name _ [] rfl
  · intro hplain out hout
    rcases rewritten_shape c failure tokens with
      ⟨s, rest, hreach, hall⟩ | ⟨s, name, attrs, rest, hreach, hadm, hall⟩
    · exact hreach.confined hplain (hall ▸ hout)
    · exact hreach.confined_start hplain hadm (hall ▸ hout)

end

/-! ## A disguised attribute -/

/-- A host parser that knows one storage service. -/
def storeHosts : HostParser where
  parseHost := fun _ host => if host = ascii "store.example" then some host else none
  reparse := by
    intro scheme raw host h
    split at h
    · next hraw =>
        obtain rfl := hraw
        cases h
        rfl
    · exact nomatch h

/-- A mapping of that service in normal form. -/
def storeConfig : VBucketConfig where
  realEndpoint := ascii "https://store.example"
  realBucket := ascii "real-bucket"
  realAccessKey := ascii "AKIAREAL"
  realSecretKey := ascii "real/secret"
  realRegion := ascii "us-east-1"
  pathPrefix := ascii "tenant"
  realUsePathStyle := true
  routingTokenKey := List.replicate 32 0
  routingTokenCodec := some
    { aeadKey := List.replicate 32 0
      nonceKey := List.replicate 32 0
      realBucket := ascii "real-bucket"
      pathPrefix := ascii "tenant"
      realEndpoint := ascii "https://store.example"
      routingKey := List.replicate 32 0 }

/-- The answers of that service to a plan, shown through the mapping. -/
def storeContext (plan : S3OperationPlan) : ResponseContext :=
  ⟨sampleCrypto, storeHosts, plan, storeConfig, ascii "tenant/", []⟩

/-- A listing of the virtual bucket. -/
def listRequest : Request where
  method := methodGet
  host := ascii "h"
  url := { path := ascii "/vbk", rawQuery := ascii "list-type=2" }
  header := ∅
  contentLength := 0
  transferEncoding := []
  tls := false
  body := none
  tokens := isToken_of_mem_empty

/-- The tokens of a root element with `xmlns:x="urn:upstream"` and, under that prefix, an
    attribute `x:xmlns` with the namespace of S3. -/
def disguisedTokens : List Token :=
  [.startElement { localName := ascii "ListBucketResult" }
      [⟨{ space := ascii "xmlns", localName := ascii "x" }, ascii "urn:upstream"⟩,
        ⟨{ space := ascii "urn:upstream", localName := ascii "xmlns" }, s3XMLNamespace⟩],
    .endElement { localName := ascii "ListBucketResult" }]

theorem disguised_attribute_written :
    ∃ plan, planS3Operation listRequest (ascii "vbk") [] = .ok plan ∧
      normalizeVBucketConfig storeHosts sampleCrypto (some storeConfig) = .ok storeConfig ∧
      ¬ ∀ out, out <+: rewritten (storeContext plan) disguisedTokens none →
        Confined (storeContext plan) none disguisedTokens out := by
  have hcheck : okAnd (planS3Operation listRequest (ascii "vbk") []) (fun plan =>
      rewritten (storeContext plan) disguisedTokens none =
        [.startElement { localName := ascii "ListBucketResult" }
            [⟨{ space := ascii "urn:upstream", localName := ascii "xmlns" }, s3XMLNamespace⟩],
          .endElement { localName := ascii "ListBucketResult" }]) = true := by
    decide +kernel
  obtain ⟨plan, hplan, hout⟩ := exists_of_okAnd hcheck
  refine ⟨plan, hplan, by decide +kernel, fun hconfined => ?_⟩
  have hdeclared := (hconfined _ List.prefix_rfl).attributes
  rw [of_decide_eq_true hout] at hdeclared
  exact absurd (hdeclared [] _ _ _ rfl _ List.mem_cons_self) (by decide)

end S3
