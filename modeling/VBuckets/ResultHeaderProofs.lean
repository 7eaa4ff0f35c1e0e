import VBuckets.UpstreamProofs
import VBuckets.TokenProofs
import VBuckets.MiddlewareProofs

/-! # Result headers

    Which headers of a successful response reach the client.  A value is dropped when a
    configured identifier of the mapping occurs in it, by a substring test that knows nothing
    of what the value means: a validator, a length or a token may contain the path prefix by
    accident.

    Under a name that is safe and not nominated, what arrives is exactly the list of shown
    values that pass the test (`copySafeResponseHeaders_at`).  An empty version refuses the
    whole response, and so does a document that cannot be read (`sent_iff`); nothing else
    does, so each of the three results arrives exactly when the values themselves pass
    (`result_headers_survive`). -/

namespace S3

open ByteString Url Http Mapping Xml

/-- The values under every spelling of a name. -/
def valuesUnder (es : List (Sigma (fun _ : Bytes => List Bytes))) (name : Bytes) : List Bytes :=
  es.flatMap (fun e => if canonicalHeaderKey e.1 = name then e.2 else [])

/-- The values of a response under a name. -/
def UpstreamResponse.valuesOf (resp : UpstreamResponse) (name : Bytes) : List Bytes :=
  valuesUnder resp.header.entries name

/-- Whether the values under a name are looked at. -/
def keepsHeader (src : Header) (name : Bytes) : Bool :=
  !(hopByHopHeaderSet src).contains name && safeS3ResponseHeader name

/-- No version of a response that is looked at is empty. -/
def UpstreamResponse.Versioned (resp : UpstreamResponse) : Prop :=
  ∀ name ∈ versionHeaders, keepsHeader resp.header name = true → [] ∉ resp.valuesOf name

section
variable (c : ResponseContext) (cipher : OpaqueTokenCipher) (status : Nat)

/-- A value as a client sees it. -/
def shownValue (name value : Bytes) : Bytes :=
  if versionHeaders.contains name then tokenOf c.crypto c.cfg cipher .version value else value

/-- The values that pass the test for identifiers. -/
def shownValues (name : Bytes) (values : List Bytes) : List Bytes :=
  (values.map (shownValue c cipher name)).filter (fun value => !dropsHeaderValue c status name value)

end

/-! ## Staging -/

section
variable {c : ResponseContext} {cipher : OpaqueTokenCipher} {status : Nat} {name : Bytes}

/-- The loop passes over a name exactly when it is not kept. -/
theorem skips_iff {src : Header} :
    ((hopByHopHeaderSet src).contains name || !safeS3ResponseHeader name) =
      !keepsHeader src name := by
  rw [keepsHeader]
  cases (hopByHopHeaderSet src).contains name <;> cases safeS3ResponseHeader name <;> rfl

theorem valuesUnder_cons (e : Sigma (fun _ : Bytes => List Bytes))
    (es : List (Sigma (fun _ : Bytes => List Bytes))) :
    valuesUnder (e :: es) name =
      (if canonicalHeaderKey e.1 = name then e.2 else []) ++ valuesUnder es name := rfl

theorem shownValues_append (values values' : List Bytes) :
    shownValues c cipher status name (values ++ values') =
      shownValues c cipher status name values ++ shownValues c cipher status name values' := by
  rw [shownValues, List.map_append, List.filter_append]
  rfl

theorem stageValues_eq (hc : routingTokenCipher c.crypto c.cfg = .ok cipher) {values : List Bytes}
    (hne : name ∈ versionHeaders → [] ∉ values) :
    stageValues c status name values = .ok (shownValues c cipher status name values) := by
  induction values with
  | nil => rfl
  | cons value values ih =>
      have hvalue : virtualHeaderValue c name value = .ok (shownValue c cipher name value) := by
        unfold virtualHeaderValue shownValue
        by_cases hversion : versionHeaders.contains name = true
        · have hsome : value ≠ [] := by
            rintro rfl
            exact hne (List.contains_iff_mem.mp hversion) List.mem_cons_self
          rw [if_pos hversion, if_pos hversion, encodeOpaqueToken_eq hc hsome]
          rfl
        · rw [if_neg hversion, if_neg hversion]
      have hrest := ih (fun hversion hmem => hne hversion (List.mem_cons_of_mem _ hmem))
      rw [stageValues, hvalue, hrest]
      show Except.ok _ = Except.ok _
      simp only [shownValues, List.map_cons, List.filter_cons]
      cases dropsHeaderValue c status name (shownValue c cipher name value) <;> rfl

theorem mem_foldl_add {key : Bytes} (values : List Bytes) (h : Header)
    (hmem : key ∈ values.foldl (fun h value => h.add name value) h) :
    key ∈ h ∨ key = canonicalHeaderKey name := by
  induction values generalizing h with
  | nil => exact .inl hmem
  | cons value values ih =>
      rcases ih _ hmem with hmem | hmem
      · rcases (AList.mem_insert _).mp hmem with rfl | hmem
        · exact .inr rfl
        · exact .inl hmem
      · exact .inr hmem

variable (status) in
/-- What the loop over the headers stages: under each name it keeps, the shown values of
    every spelling of it. -/
theorem stageHeaders_spec (hc : routingTokenCipher c.crypto c.cfg = .ok cipher) (src : Header)
    (es : List (Sigma (fun _ : Bytes => List Bytes)))
    (hne : ∀ name ∈ versionHeaders, keepsHeader src name = true → [] ∉ valuesUnder es name)
    (staged : Header) (hstaged : ∀ key ∈ staged, canonicalHeaderKey key = key) :
    ∃ staged', stageHeaders c status src es staged = .ok staged' ∧
      (∀ key ∈ staged', canonicalHeaderKey key = key) ∧
      ∀ name, staged'.at_ name = staged.at_ name ++
        if keepsHeader src name = true then
          shownValues c cipher status name (valuesUnder es name) else [] := by
  induction es generalizing staged with
  | nil =>
      refine ⟨staged, rfl, hstaged, fun name => ?_⟩
      split <;> simp [valuesUnder, shownValues]
  | cons e es ih =>
      have hrest : ∀ name ∈ versionHeaders, keepsHeader src name = true →
          [] ∉ valuesUnder es name := by
        intro name hname hkept hmem
        exact hne name hname hkept (List.mem_append_right _ hmem)
      rw [stageHeaders]
      by_cases hskip : ((hopByHopHeaderSet src).contains (canonicalHeaderKey e.1) ||
          !safeS3ResponseHeader (canonicalHeaderKey e.1)) = true
      · rw [if_pos hskip]
        obtain ⟨staged', hrun, hkeys, hat⟩ := ih hrest staged hstaged
        refine ⟨staged', hrun, hkeys, fun name => ?_⟩
        rw [hat name, valuesUnder_cons]
        by_cases hname : canonicalHeaderKey e.1 = name
        · -- the name of this entry is not kept
          have hdropped : ¬ keepsHeader src name = true := by
            intro hkept
            rw [skips_iff, hname, hkept] at hskip
            exact absurd hskip (by decide)
          rw [if_neg hdropped, if_neg hdropped]
        · rw [if_neg hname, List.nil_append]
      · rw [if_neg hskip]
        have hkept : keepsHeader src (canonicalHeaderKey e.1) = true := by
          rw [skips_iff, Bool.not_eq_true', Bool.not_eq_false] at hskip
          exact hskip
        -- values of a version become tokens here; with an empty one this would fail
        have hvalues : stageValues c status (canonicalHeaderKey e.1) e.2 =
            .ok (shownValues c cipher status (canonicalHeaderKey e.1) e.2) := by
          refine stageValues_eq hc (fun hversion hmem => hne _ hversion hkept ?_)
          rw [valuesUnder_cons, if_pos rfl]
          exact List.mem_append_left _ hmem
        rw [hvalues]
        obtain ⟨staged', hrun, hkeys, hat⟩ := ih hrest
          ((shownValues c cipher status (canonicalHeaderKey e.1) e.2).foldl
            (fun staged value => staged.add (canonicalHeaderKey e.1) value) staged) (by
          intro key hkey
          rcases mem_foldl_add _ _ hkey with hkey | rfl
          · exact hstaged key hkey
          · exact canonicalHeaderKey_idem _)
        refine ⟨staged', hrun, hkeys, fun name => ?_⟩
        rw [hat name, Header.at_foldl_add, canonicalHeaderKey_idem, valuesUnder_cons]
        by_cases hname : name = canonicalHeaderKey e.1
        · rw [← hname] at hkept
          rw [if_pos hname, if_pos hkept, if_pos hkept, if_pos hname.symm, shownValues_append,
            List.append_assoc, hname]
        · rw [if_neg hname, if_neg (Ne.symm hname), List.nil_append]

/-- An empty version has no token. -/
theorem stageValues_empty (hversion : name ∈ versionHeaders) {values : List Bytes}
    (hempty : [] ∈ values) : ∃ e, stageValues c status name values = .error e := by
  induction values with
  | nil => cases hempty
  | cons value values ih =>
      rw [stageValues]
      cases hvalue : virtualHeaderValue c name value with
      | error e => exact ⟨e, rfl⟩
      | ok shown =>
          rcases List.mem_cons.mp hempty with rfl | hempty
          · rw [virtualHeaderValue, if_pos (List.contains_iff_mem.mpr hversion),
              encodeOpaqueToken, if_pos rfl] at hvalue
            cases hvalue
          · obtain ⟨e, hrest⟩ := ih hempty
            exact ⟨e, by rw [hrest]; rfl⟩

/-- An empty version that is looked at ends the loop over the headers, wherever it stands. -/
theorem stageHeaders_empty {src : Header} (hversion : name ∈ versionHeaders)
    (hkept : keepsHeader src name = true) {es : List (Sigma (fun _ : Bytes => List Bytes))}
    (hempty : [] ∈ valuesUnder es name) (staged : Header) :
    ∃ e, stageHeaders c status src es staged = .error e := by
  induction es generalizing staged with
  | nil => exact nomatch hempty
  | cons e es ih =>
      rw [valuesUnder_cons, List.mem_append] at hempty
      rw [stageHeaders]
      by_cases hskip : ((hopByHopHeaderSet src).contains (canonicalHeaderKey e.1) ||
          !safeS3ResponseHeader (canonicalHeaderKey e.1)) = true
      · rw [if_pos hskip]
        -- the loop stops at this entry, or the empty version is in a later one
        refine ih (hempty.resolve_left (fun hhere => ?_)) staged
        by_cases hname : canonicalHeaderKey e.1 = name
        · rw [skips_iff, hname, hkept] at hskip
          exact absurd hskip (by decide)
        · rw [if_neg hname] at hhere
          exact nomatch hhere
      · rw [if_neg hskip]
        cases hvalues : stageValues c status (canonicalHeaderKey e.1) e.2 with
        | error failure => exact ⟨failure, rfl⟩
        | ok values =>
            refine ih (hempty.resolve_left (fun hhere => ?_)) _
            by_cases hname : canonicalHeaderKey e.1 = name
            · rw [if_pos hname] at hhere
              obtain ⟨failure, hfails⟩ : ∃ failure, stageValues c status name e.2 = .error failure :=
                stageValues_empty hversion hhere
              rw [hname, hfails] at hvalues
              exact nomatch hvalues
            · rw [if_neg hname] at hhere
              exact nomatch hhere

variable (status) in
/-- **WHAT ARRIVES** under each name, unless a version is empty. -/
theorem copySafeResponseHeaders_at (hc : routingTokenCipher c.crypto c.cfg = .ok cipher)
    {resp : UpstreamResponse} (hversioned : resp.Versioned) :
    ∃ header, copySafeResponseHeaders c status resp.header ∅ = (header, .ok ()) ∧
      ∀ name, header.at_ name =
        if keepsHeader resp.header name = true then
          shownValues c cipher status name (resp.valuesOf name) else [] := by
  obtain ⟨staged, hrun, hkeys, hat⟩ := stageHeaders_spec status hc resp.header
    resp.header.entries hversioned ∅ (fun key hkey => absurd hkey (AList.notMem_empty key))
  rw [copySafeResponseHeaders, hrun]
  refine ⟨_, rfl, fun name => ?_⟩
  rw [at_foldl_entries _ (fun _ => true) ?_ ∅ name, if_pos rfl, hat name]
  · rfl
  · intro h e he name
    rw [Header.at_foldl_add, hkeys e.1 (mem_of_entry he)]
    simp

variable (status) in
/-- The headers are refused only for an empty version. -/
theorem copied_iff (hc : routingTokenCipher c.crypto c.cfg = .ok cipher) {resp : UpstreamResponse} :
    (∃ header, copySafeResponseHeaders c status resp.header ∅ = (header, .ok ())) ↔
      resp.Versioned := by
  constructor
  · rintro ⟨header, hcopy⟩ name hversion hkept hempty
    obtain ⟨e, hfails⟩ : ∃ e, stageHeaders c status resp.header resp.header.entries ∅ = .error e :=
      stageHeaders_empty hversion hkept hempty ∅
    rw [copySafeResponseHeaders, hfails] at hcopy
    exact nomatch congrArg Prod.snd hcopy
  · intro hversioned
    obtain ⟨header, hcopy, -⟩ := copySafeResponseHeaders_at status hc hversioned
    exact ⟨header, hcopy⟩

end

/-! ## Sending -/

section
variable {xml : ResponseXml} {c : ResponseContext} {resp : UpstreamResponse} {method name : Bytes}

/-- Dropping headers spares a name whose lower-case spelling is not picked. -/
theorem dropHeaders_at {test : Bytes → Bool} (hname : test (toLower name) = false)
    (headers : Header) : (dropHeaders test headers).at_ name = headers.at_ name := by
  have hlist : ∀ (l : List (Sigma (fun _ : Bytes => List Bytes))) (h : Header),
      (l.foldl (fun h e => if test (toLower e.1) then h.del e.1 else h) h).at_ name =
        h.at_ name := by
    intro l
    induction l with
    | nil => exact fun h => rfl
    | cons e l ih =>
        intro h
        rw [List.foldl_cons, ih]
        by_cases hpick : test (toLower e.1) = true
        · rw [if_pos hpick, Header.at_del, if_neg]
          rintro rfl
          rw [toLower_canonicalHeaderKey, hpick] at hname
          exact nomatch hname
        · rw [if_neg hpick]
  exact hlist headers.entries headers

/-- A success is neither a redirect nor an error. -/
theorem handler_success (hsuccess : isSuccess resp.status = true) (w : ResponseWriter) :
    writeVirtualizedUpstreamResponse xml c resp method w =
      if method = methodHead then
        withSafeHeaders c resp w (fun w => w.head resp.status (fun w => (w, .returned)))
      else writeSuccess xml c resp w := by
  have hrange : 200 ≤ resp.status ∧ resp.status < 300 := by simpa [isSuccess] using hsuccess
  have hredirect : ¬ isS3RedirectStatus resp.status = true := by
    simp only [isS3RedirectStatus, List.contains_iff_mem, List.mem_cons, List.not_mem_nil,
      or_false]
    omega
  have hmodified : ¬ resp.status = 304 := by omega
  rw [writeVirtualizedUpstreamResponse, if_neg hredirect, if_neg hmodified, hsuccess]
  rfl

theorem head_success (hsuccess : isSuccess resp.status = true) (w : ResponseWriter)
    (next : ResponseWriter → ResponseWriter × Ending) :
    w.head resp.status next = next (w.writeHeader resp.status) := by
  have hrange : 200 ≤ resp.status ∧ resp.status < 300 := by simpa [isSuccess] using hsuccess
  rw [ResponseWriter.head, if_neg (by omega)]

theorem withSafeHeaders_ok {header : Header}
    (hcopy : copySafeResponseHeaders c resp.status resp.header ∅ = (header, .ok ()))
    (next : ResponseWriter → ResponseWriter × Ending) :
    withSafeHeaders c resp {} next = next { header := header } := by
  rw [withSafeHeaders, hcopy]

theorem withSafeHeaders_error {header : Header} {e : Reason}
    (hcopy : copySafeResponseHeaders c resp.status resp.header ∅ = (header, .error e))
    (next : ResponseWriter → ResponseWriter × Ending) :
    withSafeHeaders c resp {} next = invalidUpstream { header := header } e := by
  rw [withSafeHeaders, hcopy]

/-- A response to `HEAD` and a streamed object keep every header. -/
theorem sent_read {header : Header} (hsuccess : isSuccess resp.status = true)
    (hcopy : copySafeResponseHeaders c resp.status resp.header ∅ = (header, .ok ()))
    (hread : method = methodHead ∨ c.plan.responseProfile = .streamObject) :
    (writeVirtualizedUpstreamResponse xml c resp method {}).1.sent =
      some (resp.status, header) := by
  have hsent : (({ header := header } : ResponseWriter).writeHeader resp.status).sent =
      some (resp.status, header) := writeHeader_success rfl hsuccess
  rw [handler_success hsuccess]
  by_cases hhead : method = methodHead
  · rw [if_pos hhead, withSafeHeaders_ok hcopy, head_success hsuccess]
    exact hsent
  · have hstream : c.plan.responseProfile = .streamObject := hread.resolve_left hhead
    rw [if_neg hhead, writeSuccess, hstream]
    simp only
    rw [withSafeHeaders_ok hcopy, head_success hsuccess]
    exact streamObject_sent hsent

/-- A response without a body keeps every header that does not describe one. -/
theorem sent_safeHeaders {header : Header} (hsuccess : isSuccess resp.status = true)
    (hcopy : copySafeResponseHeaders c resp.status resp.header ∅ = (header, .ok ()))
    (hprofile : c.plan.responseProfile = .safeHeaders) :
    ∃ sent, (writeVirtualizedUpstreamResponse xml c resp method {}).1.sent =
        some (resp.status, sent) ∧
      ∀ name, discardedBodyHeader (toLower name) = false → sent.at_ name = header.at_ name := by
  by_cases hhead : method = methodHead
  · exact ⟨header, sent_read hsuccess hcopy (.inl hhead), fun name _ => rfl⟩
  · refine ⟨(dropDiscardedBodyHeaders header).del (ascii "Content-Length"), ?_, ?_⟩
    · rw [handler_success hsuccess, if_neg hhead, writeSuccess, hprofile]
      simp only
      rw [withSafeHeaders_ok hcopy, head_success hsuccess]
      exact writeHeader_success rfl hsuccess
    · intro name hname
      rw [Header.at_del, if_neg, dropDiscardedBodyHeaders, dropHeaders_at hname]
      rintro rfl
      exact absurd hname (by decide)

theorem streamDocument_sent {w : ResponseWriter} {sent : Nat × Header} (hw : w.sent = some sent) :
    (streamDocument xml c resp w).1.sent = some sent := by
  unfold streamDocument
  rcases xml.tokens resp.body with ⟨tokens, failure⟩
  simp only
  cases rewriteNamespaceXML { c with virtualLocation := [] } tokens failure with
  | ok | error => exact write_sent hw _

def versionHeader : Bytes := ascii "X-Amz-Version-Id"

/-- The version stays when a document replaces the body. -/
theorem documentHead_sent (hsuccess : isSuccess resp.status = true) (header : Header)
    (profile : ResponseProfile) {next : ResponseWriter → ResponseWriter × Ending}
    (hnext : ∀ w sent, w.sent = some sent → (next w).1.sent = some sent) :
    ∃ sent, (documentHead resp profile { header := header } next).1.sent =
        some (resp.status, sent) ∧ sent.at_ versionHeader = header.at_ versionHeader := by
  have hdropped : (dropTransformedRepresentationHeaders header profile).at_ versionHeader =
      header.at_ versionHeader := by
    unfold dropTransformedRepresentationHeaders dropDiscardedBodyHeaders
    simp only
    split
    · exact dropHeaders_at (by decide) _
    · rw [dropHeaders_at (by decide), dropHeaders_at (by decide)]
  unfold documentHead
  rw [head_success hsuccess]
  refine ⟨_, hnext _ _ (writeHeader_success rfl hsuccess), ?_⟩
  show (((dropTransformedRepresentationHeaders header profile).del _).setOne _ _).at_ _ = _
  rw [Header.at_setOne, if_neg (by decide), Header.at_del, if_neg (by decide), hdropped]

/-- A refusal does not have the status of a success. -/
theorem badGateway_not_success {w : ResponseWriter} {message : String} {e : Reason}
    {sent : Header} (hsuccess : isSuccess resp.status = true) (hw : w.sent = none)
    (h : (badGateway w message e).1.sent = some (resp.status, sent)) : False := by
  have hstatus : (badGateway w message e).1.sent =
      some (502, (w.header.setOne (ascii "Content-Type") (ascii "application/xml"))) := by
    simp [badGateway, writeS3Error, ResponseWriter.write, ResponseWriter.writeHeader,
      ResponseWriter.set, hw]
  rw [hstatus] at h
  have hcode : 502 = resp.status := congrArg Prod.fst (Option.some.inj h)
  rw [← hcode] at hsuccess
  exact absurd hsuccess (by decide)

variable (xml c resp method) in
/-- The body of a success can be answered: objects and results without a body always, a
    listing if its root is the expected one, a control document if it can be rewritten as a
    whole.  The two operations of the control plane have no response from an origin. -/
def Readable : Prop :=
  method = methodHead ∨
    match c.plan.responseProfile with
    | .streamObject | .safeHeaders => True
    | .listObjects | .listMultipartUploads =>
        preflightStreamingXMLRoot xml resp.body (expectedResponseRoot c.plan.responseProfile) =
          .ok ()
    | .createMultipart | .listParts | .completeMultipart | .copyObject =>
        ∃ transformed,
          (readBoundedControlXML resp.body >>= rewriteBoundedNamespaceResponse xml c) =
            .ok transformed
    | .listBuckets | .createBucket => False

/-- What can be answered is answered with the status of the origin, and the version is sent
    as it was copied. -/
theorem sent_of_readable {header : Header} (hsuccess : isSuccess resp.status = true)
    (hcopy : copySafeResponseHeaders c resp.status resp.header ∅ = (header, .ok ()))
    (hreadable : Readable xml c resp method) :
    ∃ sent, (writeVirtualizedUpstreamResponse xml c resp method {}).1.sent =
        some (resp.status, sent) ∧ sent.at_ versionHeader = header.at_ versionHeader := by
  by_cases hhead : method = methodHead
  · exact ⟨header, sent_read hsuccess hcopy (.inl hhead), rfl⟩
  have hbody := hreadable.resolve_left hhead
  rw [handler_success hsuccess, if_neg hhead]
  -- the body decides for the profiles that read a document
  cases hprofile : c.plan.responseProfile with
  | streamObject =>
      have hsent : (writeVirtualizedUpstreamResponse xml c resp method {}).1.sent =
          some (resp.status, header) := sent_read hsuccess hcopy (.inr hprofile)
      rw [handler_success hsuccess, if_neg hhead] at hsent
      exact ⟨header, hsent, rfl⟩
  | safeHeaders =>
      obtain ⟨sent, hsent, hat⟩ : ∃ sent, (writeVirtualizedUpstreamResponse xml c resp method
          {}).1.sent = some (resp.status, sent) ∧ _ := sent_safeHeaders hsuccess hcopy hprofile
      rw [handler_success hsuccess, if_neg hhead] at hsent
      exact ⟨sent, hsent, hat _ (by decide)⟩
  | listBuckets | createBucket =>
      rw [hprofile] at hbody
      exact hbody.elim
  | listObjects | listMultipartUploads =>
      rw [hprofile] at hbody
      rw [writeSuccess, hprofile]
      simp only at hbody ⊢
      rw [hbody]
      simp only
      rw [withSafeHeaders_ok hcopy]
      exact documentHead_sent hsuccess header _ (fun w p hw => streamDocument_sent hw)
  | createMultipart | listParts | completeMultipart | copyObject =>
      rw [hprofile] at hbody
      simp only at hbody
      obtain ⟨transformed, hread⟩ := hbody
      rw [writeSuccess, hprofile]
      simp only
      rw [hread]
      simp only
      rw [withSafeHeaders_ok hcopy]
      exact documentHead_sent hsuccess header _ (fun w p hw => write_sent hw _)

/-- A status of success after the headers means that they were copied. -/
theorem copied_of_sent {sent : Header} (hsuccess : isSuccess resp.status = true)
    {next : ResponseWriter → ResponseWriter × Ending}
    (h : (withSafeHeaders c resp {} next).1.sent = some (resp.status, sent)) :
    ∃ header, copySafeResponseHeaders c resp.status resp.header ∅ = (header, .ok ()) := by
  cases hcopy : copySafeResponseHeaders c resp.status resp.header ∅ with
  | mk header result =>
      cases result with
      | ok u => exact ⟨header, rfl⟩
      | error e =>
          rw [withSafeHeaders_error hcopy] at h
          exact (badGateway_not_success hsuccess rfl h).elim

/-- Nothing is answered with the status of the origin that cannot be. -/
theorem readable_of_sent {sent : Header} (hsuccess : isSuccess resp.status = true)
    (hsent : (writeVirtualizedUpstreamResponse xml c resp method {}).1.sent =
      some (resp.status, sent)) :
    Readable xml c resp method ∧
      ∃ header, copySafeResponseHeaders c resp.status resp.header ∅ = (header, .ok ()) := by
  rw [handler_success hsuccess] at hsent
  by_cases hhead : method = methodHead
  · rw [if_pos hhead] at hsent
    exact ⟨.inl hhead, copied_of_sent hsuccess hsent⟩
  rw [if_neg hhead, writeSuccess] at hsent
  cases hprofile : c.plan.responseProfile with
  | streamObject | safeHeaders =>
      rw [hprofile] at hsent
      refine ⟨.inr ?_, copied_of_sent hsuccess hsent⟩
      rw [hprofile]
      trivial
  | listBuckets | createBucket =>
      rw [hprofile] at hsent
      exact nomatch hsent
  | listObjects | listMultipartUploads =>
      rw [hprofile] at hsent
      simp only at hsent
      cases hroot : preflightStreamingXMLRoot xml resp.body
          (expectedResponseRoot c.plan.responseProfile) with
      | error e =>
          rw [hprofile] at hroot
          rw [hroot] at hsent
          exact (badGateway_not_success hsuccess rfl hsent).elim
      | ok u =>
          rw [hprofile] at hroot
          rw [hroot] at hsent
          refine ⟨.inr ?_, copied_of_sent hsuccess hsent⟩
          rw [hprofile]
          exact hroot
  | createMultipart | listParts | completeMultipart | copyObject =>
      rw [hprofile] at hsent
      simp only at hsent
      cases hread : readBoundedControlXML resp.body >>= rewriteBoundedNamespaceResponse xml c with
      | error e =>
          rw [hread] at hsent
          exact (badGateway_not_success hsuccess rfl hsent).elim
      | ok transformed =>
          rw [hread] at hsent
          refine ⟨.inr ?_, copied_of_sent hsuccess hsent⟩
          rw [hprofile]
          exact ⟨transformed, hread⟩

/-- **WHEN A SUCCESS IS PASSED ON** as one: its body can be answered and no version is
    empty. -/
theorem sent_iff {cipher : OpaqueTokenCipher} (hc : routingTokenCipher c.crypto c.cfg = .ok cipher)
    (hsuccess : isSuccess resp.status = true) :
    (∃ sent, (writeVirtualizedUpstreamResponse xml c resp method {}).1.sent =
        some (resp.status, sent)) ↔ Readable xml c resp method ∧ resp.Versioned := by
  rw [← copied_iff resp.status hc]
  constructor
  · rintro ⟨sent, hsent⟩
    exact readable_of_sent hsuccess hsent
  · rintro ⟨hreadable, header, hcopy⟩
    obtain ⟨sent, hsent, -⟩ := sent_of_readable hsuccess hcopy hreadable
    exact ⟨sent, hsent⟩

end

/-! ## Which values survive -/

/-- What planning fixes of a plan: the profile of its operation, and the method of a read
    that has no body. -/
structure Serves (method : Bytes) (plan : S3OperationPlan) : Prop where
  profile : plan.responseProfile = plan.kind.responseProfile
  head : plan.kind = .headObject ∨ plan.kind = .headObjectVersion → method = methodHead

theorem serves_of_plan {r : Request} {bucket objectKey : Bytes} {plan : S3OperationPlan}
    (hplan : planS3Operation r bucket objectKey = .ok plan) : Serves r.method plan := by
  have h := plan_spec hplan
  refine ⟨by rw [h.fields]; rfl, fun hkind => ?_⟩
  obtain ⟨hmem, -⟩ := selectKind_spec h.kind
  have hobject : pathClass bucket objectKey = .object := by
    rw [← (candidates_spec hmem).1]
    rcases hkind with hkind | hkind <;> rw [hkind] <;> rfl
  rw [hobject] at hmem
  simp only [candidates] at hmem
  by_contra hmethod
  rw [if_neg hmethod] at hmem
  revert hmem
  rcases hkind with hkind | hkind <;> rw [hkind] <;> (repeat' split) <;> decide

/-- Authorization keeps what planning fixed. -/
theorem serves_of_planTarget {lib : AuthLibrary} {r : Request} {target : Target}
    {plan : S3OperationPlan} (h : planTarget lib r target = .ok plan) (locationConstraint : Bytes)
    (now : Time.Instant) :
    Serves r.method (plan.withAuthorizationContext locationConstraint now) := by
  obtain ⟨-, planned, data, length, hplanned, rfl⟩ := planTarget_spec h
  have hserves := serves_of_plan hplanned
  exact ⟨hserves.profile, hserves.head⟩

section
variable {xml : ResponseXml} {c : ResponseContext} {resp : UpstreamResponse} {method : Bytes}
  {cipher : OpaqueTokenCipher}

theorem Serves.read (h : Serves method c.plan) (hread : operationReadsObject c.plan.kind = true) :
    method = methodHead ∨ c.plan.responseProfile = .streamObject := by
  have hprofile := h.profile
  have hhead := h.head
  revert hread hprofile hhead
  cases c.plan.kind with
  | headObject => exact fun _ _ hhead => .inl (hhead (.inl rfl))
  | headObjectVersion => exact fun _ _ hhead => .inl (hhead (.inr rfl))
  | getObject | getObjectVersion => exact fun _ hprofile _ => .inr hprofile
  | _ => exact fun hread _ _ => nomatch hread

/-- The values a mapping lets through. -/
def clearValues (c : ResponseContext) (values : List Bytes) : List Bytes :=
  values.filter (fun value => !containsSensitiveBackendValue c value)

/-- Outside object reads, and for what users do not control, every value is tested. -/
theorem shownValues_tested {status : Nat} {name : Bytes}
    (h : operationReadsObject c.plan.kind = false ∨ userControlledResponseHeader name = false)
    (values : List Bytes) :
    shownValues c cipher status name values =
      clearValues c (values.map (shownValue c cipher name)) := by
  refine List.filter_congr (fun value _ => ?_)
  rw [dropsHeaderValue]
  rcases h with h | h <;> simp [h]

theorem map_shownValue {name : Bytes} (h : versionHeaders.contains name = false)
    (values : List Bytes) : values.map (shownValue c cipher name) = values := by
  refine (List.map_congr_left (fun value _ => ?_)).trans (List.map_id values)
  rw [shownValue, h]
  rfl

/-- The headers of results. -/
def resultHeaders : List Bytes :=
  [ascii "Etag", ascii "Content-Length", ascii "Content-Range", versionHeader]

theorem keepsHeader_result (hnominated : ∀ name ∈ resultHeaders,
    name ∉ hopByHopHeaderSet resp.header) : ∀ name ∈ resultHeaders,
      keepsHeader resp.header name = true := by
  intro name hname
  have hsafe : ∀ name ∈ resultHeaders, safeS3ResponseHeader name = true := by
    unfold resultHeaders versionHeader safeS3ResponseHeader
    repeat rw [ascii_ofList]
    decide +kernel
  rw [keepsHeader, hsafe name hname, Bool.and_true, Bool.not_eq_true', ← Bool.not_eq_true,
    List.contains_iff_mem]
  exact hnominated name hname

/-- No identifier of the mapping occurs in a value under one of the names. -/
def Clear (c : ResponseContext) (resp : UpstreamResponse) (names : List Bytes) : Prop :=
  ∀ name ∈ names, ∀ value ∈ resp.valuesOf name, containsSensitiveBackendValue c value = false

/-- The client receives the values under some names unchanged, with the status of the
    origin. -/
def Unchanged (xml : ResponseXml) (c : ResponseContext) (resp : UpstreamResponse) (method : Bytes)
    (names : List Bytes) : Prop :=
  ∃ sent, (writeVirtualizedUpstreamResponse xml c resp method {}).1.sent =
      some (resp.status, sent) ∧ ∀ name ∈ names, sent.at_ name = resp.valuesOf name

/-- The client receives a token that stands for a version. -/
def VersionShown (xml : ResponseXml) (c : ResponseContext) (resp : UpstreamResponse)
    (method version : Bytes) : Prop :=
  ∃ sent, (writeVirtualizedUpstreamResponse xml c resp method {}).1.sent =
      some (resp.status, sent) ∧
    ∃ token ∈ sent.at_ versionHeader,
      decodeOpaqueToken c.crypto c.cfg .version token = .ok version

theorem clearValues_eq_self {values : List Bytes} :
    clearValues c values = values ↔
      ∀ value ∈ values, containsSensitiveBackendValue c value = false := by
  rw [clearValues, List.filter_eq_self]
  simp only [Bool.not_eq_true']

/-- Names under which exactly the clear values are sent arrive unchanged when their values are
    clear, and the response is not refused. -/
theorem unchanged_iff {names : List Bytes}
    (hc : routingTokenCipher c.crypto c.cfg = .ok cipher) (hsuccess : isSuccess resp.status = true)
    (hsends : resp.Versioned → ∃ sent,
      (writeVirtualizedUpstreamResponse xml c resp method {}).1.sent = some (resp.status, sent) ∧
      ∀ name ∈ names, sent.at_ name = clearValues c (resp.valuesOf name)) :
    Unchanged xml c resp method names ↔ resp.Versioned ∧ Clear c resp names := by
  constructor
  · rintro ⟨sent, hsent, hsame⟩
    have hversioned := ((sent_iff hc hsuccess).mp ⟨sent, hsent⟩).2
    obtain ⟨sent', hsent', hclear⟩ := hsends hversioned
    obtain rfl : sent = sent' := congrArg Prod.snd (Option.some.inj (hsent.symm.trans hsent'))
    refine ⟨hversioned, fun name hname => ?_⟩
    rw [← clearValues_eq_self, ← hclear name hname, hsame name hname]
  · rintro ⟨hversioned, hclear⟩
    obtain ⟨sent, hsent, hat⟩ := hsends hversioned
    refine ⟨sent, hsent, fun name hname => ?_⟩
    rw [hat name hname, clearValues_eq_self.mpr (hclear name hname)]

/-- What is copied under the names of results: the shown values that the test lets through. -/
theorem copied_results (hc : routingTokenCipher c.crypto c.cfg = .ok cipher)
    (hnominated : ∀ name ∈ resultHeaders, name ∉ hopByHopHeaderSet resp.header)
    (hversioned : resp.Versioned) :
    ∃ header, copySafeResponseHeaders c resp.status resp.header ∅ = (header, .ok ()) ∧
      ∀ name ∈ resultHeaders,
        operationReadsObject c.plan.kind = false ∨ userControlledResponseHeader name = false →
        header.at_ name = clearValues c ((resp.valuesOf name).map (shownValue c cipher name)) := by
  obtain ⟨header, hcopy, hat⟩ := copySafeResponseHeaders_at resp.status hc hversioned
  refine ⟨header, hcopy, fun name hname htested => ?_⟩
  rw [hat name, if_pos (keepsHeader_result hnominated name hname), shownValues_tested htested]

variable (xml c) in
/-- **RESULT HEADERS SURVIVE** exactly when no identifier of the mapping occurs in them and the
    response is not refused: the validator of a write, the length and the range of a read, and,
    of any operation, the version, for which the test looks at the token. -/
theorem result_headers_survive {raw : Option VBucketConfig} (hlaw : c.crypto.Opens)
    (hcfg : normalizeVBucketConfig c.hosts c.crypto raw = .ok c.cfg)
    (hserves : Serves method c.plan) (hsuccess : isSuccess resp.status = true)
    (hnominated : ∀ name ∈ resultHeaders, name ∉ hopByHopHeaderSet resp.header) :
    (c.plan.kind = .putObject ∨ c.plan.kind = .uploadPart →
      (Unchanged xml c resp method [ascii "Etag"] ↔
        resp.Versioned ∧ Clear c resp [ascii "Etag"])) ∧
    (operationReadsObject c.plan.kind = true →
      (Unchanged xml c resp method [ascii "Content-Length", ascii "Content-Range"] ↔
        resp.Versioned ∧ Clear c resp [ascii "Content-Length", ascii "Content-Range"])) ∧
    ∀ version ∈ resp.valuesOf versionHeader, version ≠ [] →
      (VersionShown xml c resp method version ↔
        resp.Versioned ∧ Readable xml c resp method ∧
          ∃ token, encodeOpaqueToken c.crypto c.cfg .version version = .ok token ∧
            containsSensitiveBackendValue c token = false) := by
  obtain ⟨cipher, hc⟩ : ∃ cipher, routingTokenCipher c.crypto c.cfg = .ok cipher :=
    exists_routingTokenCipher (normalize_key hcfg)
  refine ⟨?_, ?_, ?_⟩
  · intro hkind
    -- a write answers with headers alone
    have hprofile : c.plan.responseProfile = .safeHeaders := by
      rw [hserves.profile]
      rcases hkind with hkind | hkind <;> rw [hkind] <;> rfl
    have hwrite : operationReadsObject c.plan.kind = false := by
      rcases hkind with hkind | hkind <;> rw [hkind] <;> rfl
    refine unchanged_iff hc hsuccess (fun hversioned => ?_)
    obtain ⟨header, hcopy, hshown⟩ := copied_results hc hnominated hversioned
    obtain ⟨sent, hsent, hsame⟩ := sent_safeHeaders hsuccess hcopy hprofile
    refine ⟨sent, hsent, List.forall_mem_singleton.mpr ?_⟩
    rw [hsame _ (by decide), hshown _ (by decide) (.inl hwrite), map_shownValue (by decide)]
  · intro hread
    refine unchanged_iff hc hsuccess (fun hversioned => ?_)
    obtain ⟨header, hcopy, hshown⟩ := copied_results hc hnominated hversioned
    refine ⟨header, sent_read hsuccess hcopy (hserves.read hread), ?_⟩
    refine List.forall_mem_cons.mpr ⟨?_, List.forall_mem_singleton.mpr ?_⟩
    · rw [hshown _ (by decide) (.inr (by decide)), map_shownValue (by decide)]
    · rw [hshown _ (by decide) (.inr (by decide)), map_shownValue (by decide)]
  · intro version hversion hne
    have hencoded : encodeOpaqueToken c.crypto c.cfg .version version =
        .ok (tokenOf c.crypto c.cfg cipher .version version) := encodeOpaqueToken_eq hc hne
    have htoken : shownValue c cipher versionHeader version =
        tokenOf c.crypto c.cfg cipher .version version := by
      rw [shownValue, if_pos (by decide)]
    constructor
    · rintro ⟨sent, hsent, token, hmem, hdecoded⟩
      obtain ⟨hreadable, hversioned⟩ := (sent_iff hc hsuccess).mp ⟨sent, hsent⟩
      obtain ⟨header, hcopy, hshown⟩ := copied_results hc hnominated hversioned
      obtain ⟨sent', hsent', hat⟩ := sent_of_readable hsuccess hcopy hreadable
      obtain rfl : sent = sent' := congrArg Prod.snd (Option.some.inj (hsent.symm.trans hsent'))
      rw [hat, hshown _ (by decide) (.inr (by decide)), clearValues, List.mem_filter] at hmem
      rw [decodeOpaqueToken_iff_tokenOf hlaw hc] at hdecoded
      refine ⟨hversioned, hreadable, token, by rw [hencoded, hdecoded], ?_⟩
      simpa using hmem.2
    · rintro ⟨hversioned, hreadable, token, hencoded', hclear⟩
      obtain ⟨header, hcopy, hshown⟩ := copied_results hc hnominated hversioned
      obtain ⟨sent, hsent, hat⟩ := sent_of_readable hsuccess hcopy hreadable
      obtain rfl : tokenOf c.crypto c.cfg cipher .version version = token :=
        Except.ok.inj (hencoded.symm.trans hencoded')
      refine ⟨sent, hsent, _, ?_, (decodeOpaqueToken_iff_tokenOf hlaw hc).mpr rfl⟩
      rw [hat, hshown _ (by decide) (.inr (by decide))]
      refine List.mem_filter.mpr ⟨List.mem_map.mpr ⟨version, hversion, htoken⟩, ?_⟩
      rw [hclear]
      rfl

end

/-- The mapping of the store, under another prefix and with a cipher of its own. -/
def tenantConfig (pathPrefix : Bytes) : VBucketConfig :=
  let cfg := { storeConfig with pathPrefix := pathPrefix }
  { cfg with routingTokenCodec := some (cipherOf framedCrypto cfg) }

def tenantContext (pathPrefix : Bytes) (plan : S3OperationPlan) : ResponseContext :=
  ⟨framedCrypto, storeHosts, plan, tenantConfig pathPrefix, pathPrefix ++ ascii "/", []⟩

/-- A success with the headers of a result. -/
def storedResult (version : Bytes) : UpstreamResponse where
  status := 200
  header := (((∅ : Header).setOne (ascii "Etag") (ascii "\"90a1\"")).setOne
    (ascii "Content-Length") (ascii "19")).setOne versionHeader version
  body := { data := [] }

/-- Under the prefix `tenant` the validator and the version of a write arrive. -/
theorem result_headers_survive_of_tenant :
    ∃ plan, planS3Operation (objectRequest methodPut) (ascii "vbk") (ascii "k") = .ok plan ∧
      plan.kind = .putObject ∧
      Unchanged noXml (tenantContext (ascii "tenant") plan) (storedResult (ascii "v")) methodPut
        [ascii "Etag"] ∧
      VersionShown noXml (tenantContext (ascii "tenant") plan) (storedResult (ascii "v"))
        methodPut (ascii "v") := by
  have hcheck : okAnd (planS3Operation (objectRequest methodPut) (ascii "vbk") (ascii "k"))
      (fun plan => plan.kind = .putObject &&
        !containsSensitiveBackendValue (tenantContext (ascii "tenant") plan) (ascii "\"90a1\"") &&
        okAnd (encodeOpaqueToken framedCrypto (tenantConfig (ascii "tenant")) .version (ascii "v"))
          (fun token =>
            !containsSensitiveBackendValue (tenantContext (ascii "tenant") plan) token)) =
        true := by
    decide +kernel
  obtain ⟨plan, hplan, htests⟩ := exists_of_okAnd hcheck
  simp only [Bool.and_eq_true, decide_eq_true_eq, Bool.not_eq_true'] at htests
  obtain ⟨⟨hkind, hetag⟩, htoken⟩ := htests
  obtain ⟨token, hencoded, hclear⟩ := exists_of_okAnd htoken
  have hcfg : normalizeVBucketConfig storeHosts framedCrypto
      (some (tenantConfig (ascii "tenant"))) = .ok (tenantConfig (ascii "tenant")) := by
    decide +kernel
  have hversioned : (storedResult (ascii "v")).Versioned := by
    have hnone : ∀ name ∈ versionHeaders, [] ∉ (storedResult (ascii "v")).valuesOf name := by
      decide +kernel
    exact fun name hname _ => hnone name hname
  have hserves := serves_of_plan hplan
  have hreadable : Readable noXml (tenantContext (ascii "tenant") plan) (storedResult (ascii "v"))
      methodPut := by
    have hprofile : (tenantContext (ascii "tenant") plan).plan.responseProfile = .safeHeaders :=
      hserves.profile.trans (congrArg OperationKind.responseProfile hkind)
    refine .inr ?_
    rw [hprofile]
    trivial
  obtain ⟨hwrite, -, hversion⟩ := result_headers_survive noXml
    (tenantContext (ascii "tenant") plan) framedCrypto_opens hcfg hserves
    (show isSuccess (storedResult (ascii "v")).status = true by decide) (by decide +kernel)
  refine ⟨plan, hplan, hkind, (hwrite (.inl hkind)).mpr ⟨hversioned, ?_⟩,
    (hversion (ascii "v") (by decide +kernel) (by decide)).mpr
      ⟨hversioned, hreadable, token, hencoded, by simpa using hclear⟩⟩
  refine List.forall_mem_singleton.mpr (fun value hvalue => ?_)
  have hvalues : (storedResult (ascii "v")).valuesOf (ascii "Etag") = [ascii "\"90a1\""] := by
    decide +kernel
  rw [hvalues, List.mem_singleton] at hvalue
  rw [hvalue]
  exact hetag

/-- The values a client received under a name. -/
def ResponseWriter.received (w : ResponseWriter) (name : Bytes) : List Bytes :=
  match w.sent with
  | none => []
  | some (_, header) => header.at_ name

/-- What a client of the store receives under a name. -/
def tenantReceives (pathPrefix : Bytes) (method : Bytes) (resp : UpstreamResponse) (name : Bytes)
    (plan : S3OperationPlan) : List Bytes :=
  (writeVirtualizedUpstreamResponse noXml (tenantContext pathPrefix plan) resp method
    {}).1.received name

/-- A validator and a length that arrive under the prefix `tenant` are lost under the prefix
    `9`, which they happen to contain, and every version is lost under the prefix `vb1`, which
    all tokens contain.  An empty version loses the validator under any prefix, and a listing
    that cannot be read loses its version. -/
theorem result_headers_lost :
    (∀ pathPrefix ∈ [ascii "9", ascii "vb1", ascii "tenant"],
      normalizeVBucketConfig storeHosts framedCrypto (some (tenantConfig pathPrefix)) =
        .ok (tenantConfig pathPrefix)) ∧
    (∃ plan, planS3Operation (objectRequest methodPut) (ascii "vbk") (ascii "k") = .ok plan ∧
      plan.kind = .putObject ∧
      tenantReceives (ascii "tenant") methodPut (storedResult (ascii "v")) (ascii "Etag") plan =
        [ascii "\"90a1\""] ∧
      tenantReceives (ascii "9") methodPut (storedResult (ascii "v")) (ascii "Etag") plan = [] ∧
      tenantReceives (ascii "vb1") methodPut (storedResult (ascii "v")) versionHeader plan = [] ∧
      tenantReceives (ascii "tenant") methodPut (storedResult []) (ascii "Etag") plan = []) ∧
    (∃ plan, planS3Operation (objectRequest methodGet) (ascii "vbk") (ascii "k") = .ok plan ∧
      plan.kind = .getObject ∧
      tenantReceives (ascii "tenant") methodGet (storedResult (ascii "v"))
        (ascii "Content-Length") plan = [ascii "19"] ∧
      tenantReceives (ascii "9") methodGet (storedResult (ascii "v")) (ascii "Content-Length")
        plan = []) ∧
    ∃ plan, planS3Operation listRequest (ascii "vbk") [] = .ok plan ∧
      tenantReceives (ascii "tenant") methodGet (storedResult (ascii "v")) versionHeader
        plan = [] := by
  -- one evaluation: the cases share the tables
  have hchecks : (∀ pathPrefix ∈ [ascii "9", ascii "vb1", ascii "tenant"],
      normalizeVBucketConfig storeHosts framedCrypto (some (tenantConfig pathPrefix)) =
        .ok (tenantConfig pathPrefix)) ∧
      okAnd (planS3Operation (objectRequest methodPut) (ascii "vbk") (ascii "k")) (fun plan =>
        plan.kind = .putObject ∧
        tenantReceives (ascii "tenant") methodPut (storedResult (ascii "v")) (ascii "Etag") plan =
          [ascii "\"90a1\""] ∧
        tenantReceives (ascii "9") methodPut (storedResult (ascii "v")) (ascii "Etag") plan = [] ∧
        tenantReceives (ascii "vb1") methodPut (storedResult (ascii "v")) versionHeader plan = [] ∧
        tenantReceives (ascii "tenant") methodPut (storedResult []) (ascii "Etag") plan = []) =
          true ∧
      okAnd (planS3Operation (objectRequest methodGet) (ascii "vbk") (ascii "k")) (fun plan =>
        plan.kind = .getObject ∧
        tenantReceives (ascii "tenant") methodGet (storedResult (ascii "v"))
          (ascii "Content-Length") plan = [ascii "19"] ∧
        tenantReceives (ascii "9") methodGet (storedResult (ascii "v")) (ascii "Content-Length")
          plan = []) = true ∧
      okAnd (planS3Operation listRequest (ascii "vbk") []) (fun plan =>
        tenantReceives (ascii "tenant") methodGet (storedResult (ascii "v")) versionHeader
          plan = []) = true := by
    decide +kernel
  obtain ⟨hnormal, hput, hget, hlist⟩ := hchecks
  obtain ⟨put, hplan, hlost⟩ := exists_of_okAnd hput
  obtain ⟨get, hplan', hlost'⟩ := exists_of_okAnd hget
  obtain ⟨list, hplan'', hlost''⟩ := exists_of_okAnd hlist
  exact ⟨hnormal, ⟨put, hplan, of_decide_eq_true hlost⟩,
    ⟨get, hplan', of_decide_eq_true hlost'⟩, list, hplan'', of_decide_eq_true hlost''⟩

end S3
