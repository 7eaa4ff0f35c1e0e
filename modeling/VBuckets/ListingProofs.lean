import Mathlib.Data.List.Dedup
import VBuckets.CanonicalProofs
import VBuckets.ConfinementProofs
import VBuckets.PathProofs
import VBuckets.PolicyMeaningProofs

/-! # Keys in listings

    `virtualizeResponseKey` takes the tenant's prefix off the keys, markers and common
    prefixes an origin lists.  What it lets through is described by what the text stands
    for: `decodeListed` is the text itself, or its URL decoding when the client asked for
    encoded keys.

    Three questions are asked of it: whether what a client is shown can be requested back,
    whether encoded keys keep their meaning, and whether every common prefix an origin may
    send is let through. -/

namespace S3

open ByteString Url Http Mapping Xml Path

/-- The two documents that list keys. -/
def ResponseProfile.listsKeys (profile : ResponseProfile) : Bool :=
  profile == .listObjects || profile == .listMultipartUploads

section
variable {c : ResponseContext} {path text out k : Bytes}

/-! ## What is let through -/

variable (c) in
/-- How a client is shown a key. -/
def shownKey (k : Bytes) : Bytes := if urlEncoded c then awsURIEncode k else k

/-- The prefix is taken off what the text stands for. -/
theorem stripListPathPrefix_eq (h : decodeListed c text = some (c.pathPrefix ++ k)) :
    stripListPathPrefix text c.pathPrefix (urlEncoded c) = shownKey c k := by
  rw [decodeListed] at h
  rw [stripListPathPrefix, shownKey]
  cases hurl : urlEncoded c with
  | false =>
      rw [hurl] at h
      rw [show text = _ from Option.some.inj h, trimPrefix_append]
      rfl
  | true =>
      rw [hurl] at h
      rw [show pathUnescape text = _ from h]
      simp only [Bool.not_true, Bool.false_eq_true, if_false, if_true]
      rw [trimPrefix_append]

/-- A key that is shown stands for itself. -/
theorem decodeListed_shownKey (k : Bytes) : decodeListed c (shownKey c k) = some k := by
  rw [decodeListed, shownKey]
  cases hurl : urlEncoded c with
  | false => rfl
  | true =>
      simp only [if_true, pathUnescape]
      exact unescape_awsURIEncode (by decide) k

theorem shownKey_nil : shownKey c [] = [] := by
  rw [shownKey]
  split <;> rfl

/-- The cases of a listing: no key, a key outside the prefix, a key inside it. -/
theorem virtualizeResponseKey_listing (hlist : c.plan.responseProfile.listsKeys = true)
    {decoded : Bytes} (h : decodeListed c text = some decoded) :
    virtualizeResponseKey c path text =
      if decoded = [] then .ok []
      else if !hasPrefix decoded c.pathPrefix then
        .error { format := "upstream key field %s is outside the configured prefix", args := [path] }
      else
        (do validateAddressableKey path (trimPrefix decoded c.pathPrefix)
            .ok (stripListPathPrefix text c.pathPrefix (urlEncoded c))) := by
  rw [ResponseProfile.listsKeys, Bool.or_eq_true, beq_iff_eq, beq_iff_eq] at hlist
  rw [virtualizeResponseKey, h]
  rcases hlist with hlist | hlist
  · simp only [hlist]
  · simp only [hlist]

theorem virtualizeResponseKey_nil (hlist : c.plan.responseProfile.listsKeys = true)
    (h : decodeListed c text = some []) : virtualizeResponseKey c path text = .ok [] := by
  rw [virtualizeResponseKey_listing hlist h, if_pos rfl]

theorem virtualizeResponseKey_inside (hlist : c.plan.responseProfile.listsKeys = true)
    (h : decodeListed c text = some (c.pathPrefix ++ k)) (hne : c.pathPrefix ++ k ≠ []) :
    virtualizeResponseKey c path text =
      (do validateAddressableKey path k
          .ok (stripListPathPrefix text c.pathPrefix (urlEncoded c))) := by
  have hinside : hasPrefix (c.pathPrefix ++ k) c.pathPrefix = true :=
    hasPrefix_iff.mpr (List.prefix_append _ _)
  rw [virtualizeResponseKey_listing hlist h, if_neg hne, hinside, trimPrefix_append]
  rfl

/-- What is let through is empty, or inside the prefix. -/
theorem virtualizeResponseKey_ok (hlist : c.plan.responseProfile.listsKeys = true)
    (h : virtualizeResponseKey c path text = .ok out) :
    (decodeListed c text = some [] ∧ out = []) ∨
      ∃ k, decodeListed c text = some (c.pathPrefix ++ k) ∧
        validateAddressableKey path k = .ok () ∧ out = shownKey c k := by
  cases hdecoded : decodeListed c text with
  | none =>
      rw [virtualizeResponseKey, hdecoded] at h
      exact nomatch h
  | some decoded =>
      by_cases hempty : decoded = []
      · subst hempty
        rw [virtualizeResponseKey_nil hlist hdecoded] at h
        exact .inl ⟨rfl, (Except.ok.inj h).symm⟩
      · right
        by_cases hinside : hasPrefix decoded c.pathPrefix = true
        · obtain ⟨k, rfl⟩ := hasPrefix_iff.mp hinside
          rw [virtualizeResponseKey_inside hlist hdecoded hempty] at h
          obtain ⟨hvalid, hout⟩ := seq_ok_iff.mp h
          refine ⟨k, rfl, hvalid, ?_⟩
          rw [← Except.ok.inj hout, stripListPathPrefix_eq hdecoded]
        · rw [virtualizeResponseKey_listing hlist hdecoded, if_neg hempty,
            Bool.not_eq_true _ |>.mp hinside] at h
          exact nomatch h

/-- Every text inside the prefix is let through, if what remains may be shown. -/
theorem virtualizeResponseKey_of (hlist : c.plan.responseProfile.listsKeys = true)
    (h : decodeListed c text = some (c.pathPrefix ++ k))
    (hvalid : validateAddressableKey path k = .ok ()) :
    virtualizeResponseKey c path text = .ok (shownKey c k) := by
  by_cases hne : c.pathPrefix ++ k = []
  · rw [hne] at h
    rw [(List.append_eq_nil_iff.mp hne).2, shownKey_nil]
    exact virtualizeResponseKey_nil hlist h
  · rw [virtualizeResponseKey_inside hlist h hne, hvalid, ← stripListPathPrefix_eq h]
    rfl

/-! ## Keys that can be requested back -/

/-- The keys that are checked: those of objects and uploads are keys, the others may be
    empty. -/
theorem validateAddressableKey_ok_iff (haddress : addressableKeyValue path = true) :
    validateAddressableKey path k = .ok () ↔
      (k = [] ∧ actualObjectKey path = false) ∨
        (k ≠ [] ∧ validateVirtualObjectKey k = .ok ()) := by
  rw [validateAddressableKey, if_pos haddress]
  by_cases hk : k = []
  · subst hk
    cases hactual : actualObjectKey path with
    | true | false => simp
  · rw [if_neg (fun h => hk h.2), if_pos hk, Iam.mapError_ok_iff]
    exact ⟨fun h => .inr ⟨hk, h⟩, fun h => (h.resolve_left fun h => hk h.1).2⟩

variable (c) in
/-- A key `k` behind a listed text: the client is shown `k`, the origin sent it under the
    prefix, and every request the planner accepts for some object it accepts for `k`, and
    forwards to what the origin listed. -/
structure AddressableAs (text out k : Bytes) : Prop where
  nonempty : k ≠ []
  valid : validateVirtualObjectKey k = .ok ()
  upstream : decodeListed c text = some (c.pathPrefix ++ k)
  shown : decodeListed c out = some k
  requested : ∀ {r : Request} {bucket objectKey : Bytes} {plan : S3OperationPlan},
    planS3Operation r bucket objectKey = .ok plan → objectKey ≠ [] →
      ∃ plan', planS3Operation r bucket k = .ok plan' ∧ plan'.kind = plan.kind ∧
        plan'.objectKey = k ∧ outboundKey c.cfg plan' = c.pathPrefix ++ k

variable (c path) in
/-- What a client may be shown under a path: the key of an object or an upload is
    addressable, a marker or a common prefix may also be empty. -/
def ListedKey (text out : Bytes) : Prop :=
  (actualObjectKey path = true → ∃ k, AddressableAs c text out k) ∧
    (addressableKeyValue path = true → out = [] ∨ ∃ k, AddressableAs c text out k)

section
variable {raw : Option VBucketConfig}

theorem addressable_of_valid (hcfg : normalizeVBucketConfig c.hosts c.crypto raw = .ok c.cfg)
    (hpre : c.pathPrefix = c.cfg.realPrefix) (hne : k ≠ [])
    (hvalid : validateVirtualObjectKey k = .ok ())
    (hupstream : decodeListed c text = some (c.pathPrefix ++ k))
    (hshown : decodeListed c out = some k) : AddressableAs c text out k := by
  refine ⟨hne, hvalid, hupstream, hshown, fun {r bucket objectKey plan} hplan hobject => ?_⟩
  have hplan' := planS3Operation_key hplan hobject hne hvalid
  have hspec := plan_spec hplan'
  refine ⟨_, hplan', rfl, rfl, ?_⟩
  rw [outboundKey_eq hspec (normalize_spec hcfg), if_pos (hspec.key_iff.mpr hne), hpre]
  rfl

/-- **LISTED KEYS**: what is let through is what may be shown, exactly when the text of an
    object's or an upload's key is not empty. -/
theorem listed_key_iff (hcfg : normalizeVBucketConfig c.hosts c.crypto raw = .ok c.cfg)
    (hpre : c.pathPrefix = c.cfg.realPrefix)
    (hlist : c.plan.responseProfile.listsKeys = true)
    (h : virtualizeResponseKey c path text = .ok out) :
    ListedKey c path text out ↔
      (actualObjectKey path = true → decodeListed c text ≠ some []) := by
  constructor
  · intro hlisted hactual hempty
    obtain ⟨k, hk⟩ := hlisted.1 hactual
    have hboth := hk.upstream.symm.trans hempty
    exact hk.nonempty (List.append_eq_nil_iff.mp (Option.some.inj hboth)).2
  · intro hnonempty
    rcases virtualizeResponseKey_ok hlist h with ⟨hempty, hout⟩ | ⟨k, hk, hvalid, rfl⟩
    · exact ⟨fun hactual => absurd hempty (hnonempty hactual), fun _ => .inl hout⟩
    -- what passed the check is empty, or a key a client can address
    · have hcase : addressableKeyValue path = true →
          (k = [] ∧ actualObjectKey path = false) ∨ AddressableAs c text (shownKey c k) k := by
        intro haddress
        rcases (validateAddressableKey_ok_iff haddress).mp hvalid with hempty | ⟨hne, hkey⟩
        · exact .inl hempty
        · exact .inr (addressable_of_valid hcfg hpre hne hkey hk (decodeListed_shownKey k))
      constructor
      · intro hactual
        have haddress : addressableKeyValue path = true := by
          rw [addressableKeyValue, hactual]
          rfl
        rcases hcase haddress with ⟨-, hnot⟩ | hkey
        · rw [hactual] at hnot
          exact nomatch hnot
        · exact ⟨k, hkey⟩
      · intro haddress
        rcases hcase haddress with ⟨rfl, -⟩ | hkey
        · exact .inl shownKey_nil
        · exact .inr ⟨k, hkey⟩

end

end

/-- The key `a b` of the sample mapping. -/
theorem listed_key_iff_of_sample :
    ∃ plan, planS3Operation listRequest (ascii "vbk") [] = .ok plan ∧
      normalizeVBucketConfig storeHosts sampleCrypto (some storeConfig) = .ok storeConfig ∧
      virtualizeResponseKey (storeContext plan) (ascii "ListBucketResult/Contents/Key")
        (ascii "tenant/a b") = .ok (ascii "a b") ∧
      ListedKey (storeContext plan) (ascii "ListBucketResult/Contents/Key")
        (ascii "tenant/a b") (ascii "a b") := by
  have hcheck : okAnd (planS3Operation listRequest (ascii "vbk") []) (fun plan =>
      plan.responseProfile.listsKeys &&
      decodeListed (storeContext plan) (ascii "tenant/a b") ≠ some [] &&
      okAnd (virtualizeResponseKey (storeContext plan) (ascii "ListBucketResult/Contents/Key")
        (ascii "tenant/a b")) (fun out => out = ascii "a b")) = true := by
    decide +kernel
  have hcfg : normalizeVBucketConfig storeHosts sampleCrypto (some storeConfig) =
      .ok storeConfig := by
    decide +kernel
  obtain ⟨plan, hplan, htest⟩ := exists_of_okAnd hcheck
  rw [Bool.and_eq_true, Bool.and_eq_true, decide_eq_true_eq] at htest
  obtain ⟨out, hout, htext⟩ := exists_of_okAnd htest.2
  rw [of_decide_eq_true htext] at hout
  exact ⟨plan, hplan, hcfg, hout,
    (listed_key_iff (c := storeContext plan) hcfg
      (show ascii "tenant/" = storeConfig.realPrefix by decide) htest.1.1 hout).mpr
      fun _ => htest.1.2⟩

/-- An empty key of an object is let through. -/
theorem empty_key_listed :
    ∃ plan, planS3Operation listRequest (ascii "vbk") [] = .ok plan ∧
      normalizeVBucketConfig storeHosts sampleCrypto (some storeConfig) = .ok storeConfig ∧
      virtualizeResponseKey (storeContext plan) (ascii "ListBucketResult/Contents/Key") [] =
        .ok [] ∧
      ¬ ListedKey (storeContext plan) (ascii "ListBucketResult/Contents/Key") [] [] := by
  have hcheck : okAnd (planS3Operation listRequest (ascii "vbk") []) (fun plan =>
      decodeListed (storeContext plan) [] = some [] &&
      okAnd (virtualizeResponseKey (storeContext plan) (ascii "ListBucketResult/Contents/Key")
        []) (fun out => out = [])) = true := by
    decide +kernel
  obtain ⟨plan, hplan, htest⟩ := exists_of_okAnd hcheck
  rw [Bool.and_eq_true, decide_eq_true_eq] at htest
  obtain ⟨out, hout, htext⟩ := exists_of_okAnd htest.2
  rw [of_decide_eq_true htext] at hout
  refine ⟨plan, hplan, by decide +kernel, hout, fun hlisted => ?_⟩
  obtain ⟨k, hk⟩ := hlisted.1 (by decide)
  have hboth := hk.upstream.symm.trans htest.1
  exact hk.nonempty (List.append_eq_nil_iff.mp (Option.some.inj hboth)).2

/-! ## Encoded listings -/

/-- The encodings S3 uses for `encoding-type=url`: a space is written `+`, a plus and a
    percent sign are escaped, any other byte is escaped or stands for itself. -/
inductive FormEncodes : Bytes → Bytes → Prop
  | nil : FormEncodes [] []
  | space {s t : Bytes} (h : FormEncodes s t) : FormEncodes (32 :: s) (43 :: t)
  | literal {b : UInt8} {s t : Bytes} (hspace : b ≠ 32) (hplus : b ≠ 43) (hpercent : b ≠ 37)
      (h : FormEncodes s t) : FormEncodes (b :: s) (b :: t)
  | escaped {b hi lo : UInt8} {s t : Bytes} (hspace : b ≠ 32)
      (hhex : isHex hi = true ∧ isHex lo = true) (hbyte : unhex hi <<< 4 ||| unhex lo = b)
      (h : FormEncodes s t) : FormEncodes (b :: s) (37 :: hi :: lo :: t)

/-- `url.QueryEscape` is such an encoding. -/
theorem formEncodes_queryEscape (s : Bytes) : FormEncodes s (queryEscape s) := by
  induction s with
  | nil => exact .nil
  | cons b s ih =>
      rw [queryEscape] at ih ⊢
      rw [escape]
      by_cases hspace : b = 32
      · rw [hspace]
        exact .space ih
      · rw [if_neg (by simp [hspace])]
        by_cases hesc : shouldEscape b .queryComponent = true
        · rw [if_pos hesc]
          obtain ⟨hhi, hlo, hbyte⟩ := unhex_upperHex b
          exact .escaped hspace ⟨hhi, hlo⟩ hbyte ih
        · rw [if_neg hesc]
          refine .literal hspace ?_ ?_ ih
          · rintro rfl
            exact hesc rfl
          · rintro rfl
            exact hesc rfl

/-- What becomes of a byte when `+` is not read as a space. -/
def plusForSpace (b : UInt8) : UInt8 := if b = 32 then 43 else b

theorem map_plusForSpace_iff (s : Bytes) : s.map plusForSpace = s ↔ (32 : UInt8) ∉ s := by
  induction s with
  | nil => simp
  | cons b s ih =>
      rw [List.map_cons, List.cons.injEq, ih, List.mem_cons, not_or, plusForSpace]
      refine and_congr_left fun _ => ?_
      by_cases hb : b = 32
      · subst hb
        decide
      · rw [if_neg hb]
        exact ⟨fun _ h => hb h.symm, fun _ => rfl⟩

/-- `url.PathUnescape` undoes all of the encoding but the spaces. -/
theorem FormEncodes.pathUnescape_eq {s t : Bytes} (h : FormEncodes s t) :
    pathUnescape t = some (s.map plusForSpace) := by
  induction h with
  | nil => rfl
  | space h ih =>
      rw [pathUnescape] at ih ⊢
      rw [unescape_cons (by decide), ih]
      rfl
  | literal hspace hplus hpercent h ih =>
      rw [pathUnescape] at ih ⊢
      rw [unescape_cons (beq_false_of_ne hpercent), ih, List.map_cons, plusForSpace,
        if_neg hspace]
      simp
  | escaped hspace hhex hbyte h ih =>
      rw [pathUnescape] at ih ⊢
      rw [unescape, hhex.1, hhex.2, ih, List.map_cons, plusForSpace, if_neg hspace, ← hbyte]
      simp

section
variable {c : ResponseContext} {path text k : Bytes}

variable (c path) in
/-- An encoded key is let through, shown as a text that decodes to it, and accepted as the
    echo of a request for it. -/
structure EncodedKey (text k : Bytes) : Prop where
  shown : ∃ out, virtualizeResponseKey c path text = .ok out ∧ queryUnescape out = some k
  echoed : ∀ parameter, keyEchoParameter path = some parameter →
    c.plan.query.get parameter = k → (parameter = ascii "prefix" ∨ k ≠ []) →
      validateVirtualKeyEcho c path text = .ok ()

theorem decodeListed_form (hurl : urlEncoded c = true) {value : Bytes}
    (h : FormEncodes value text) : decodeListed c text = some (value.map plusForSpace) := by
  rw [decodeListed, if_pos hurl]
  exact h.pathUnescape_eq

theorem encodedKey_iff (hlist : c.plan.responseProfile.listsKeys = true)
    (hurl : urlEncoded c = true)
    (hk : (k = [] ∧ actualObjectKey path = false) ∨
      (k ≠ [] ∧ validateVirtualObjectKey k = .ok ()))
    (h : FormEncodes (c.pathPrefix ++ k) text) :
    EncodedKey c path text k ↔ (32 : UInt8) ∉ c.pathPrefix ++ k := by
  -- the origin writes a blank as `+`, and the path decoder leaves it alone
  have hdecoded := decodeListed_form hurl h
  constructor
  · rintro ⟨⟨out, hout, hread⟩, -⟩
    rw [← map_plusForSpace_iff]
    rcases virtualizeResponseKey_ok hlist hout with ⟨hempty, -⟩ | ⟨k', hk', -, rfl⟩
    · rw [hdecoded] at hempty
      rw [List.map_eq_nil_iff.mp (Option.some.inj hempty)]
      rfl
    · rw [shownKey, if_pos hurl, queryUnescape_awsURIEncode] at hread
      rw [hdecoded, Option.some.inj hread] at hk'
      exact Option.some.inj hk'
  · intro hspace
    rw [(map_plusForSpace_iff _).mpr hspace] at hdecoded
    refine ⟨⟨shownKey c k, virtualizeResponseKey_of hlist hdecoded ?_, ?_⟩, ?_⟩
    · by_cases haddress : addressableKeyValue path = true
      · exact (validateAddressableKey_ok_iff haddress).mpr hk
      · rw [validateAddressableKey, if_neg haddress]
    · rw [shownKey, if_pos hurl, queryUnescape_awsURIEncode]
    · intro parameter hparameter hvalue hsent
      rw [validateVirtualKeyEcho, hparameter, hdecoded]
      simp only [hvalue, hsent, if_true, bne_self_eq_false]
      rfl

theorem delimiterEcho_iff (hurl : urlEncoded c = true)
    (hpath : plainEchoParameter path = some (ascii "delimiter"))
    (h : FormEncodes (c.plan.query.get (ascii "delimiter")) text) :
    validatePlainQueryEcho c path text = .ok () ↔
      (32 : UInt8) ∉ c.plan.query.get (ascii "delimiter") := by
  rw [validatePlainQueryEcho, hpath]
  simp only [if_true, decodeListed_form hurl h]
  rw [refuseIf_ok_iff, bne_eq_false_iff_eq, map_plusForSpace_iff]

/-- **ENCODED LISTINGS**: keys, their echoes and the delimiter keep their meaning exactly
    when there is no space in them. -/
theorem encoded_listing_iff (hlist : c.plan.responseProfile.listsKeys = true)
    (hurl : urlEncoded c = true) :
    (∀ path text k, ((k = [] ∧ actualObjectKey path = false) ∨
        (k ≠ [] ∧ validateVirtualObjectKey k = .ok ())) →
      FormEncodes (c.pathPrefix ++ k) text →
        (EncodedKey c path text k ↔ (32 : UInt8) ∉ c.pathPrefix ++ k)) ∧
    (∀ path text, plainEchoParameter path = some (ascii "delimiter") →
      FormEncodes (c.plan.query.get (ascii "delimiter")) text →
        (validatePlainQueryEcho c path text = .ok () ↔
          (32 : UInt8) ∉ c.plan.query.get (ascii "delimiter"))) :=
  ⟨fun _ _ _ hk h => encodedKey_iff hlist hurl hk h,
    fun _ _ hpath h => delimiterEcho_iff hurl hpath h⟩

end

/-- The sample listing with encoded keys. -/
def encodedListRequest : Request :=
  { listRequest with
    url := { path := ascii "/vbk", rawQuery := ascii "list-type=2&encoding-type=url" }
    tokens := isToken_of_mem_empty }

/-- An encoded key without a space is shown. -/
theorem encoded_listing_of_plain :
    ∃ plan, planS3Operation encodedListRequest (ascii "vbk") [] = .ok plan ∧
      plan.responseProfile.listsKeys = true ∧ urlEncoded (storeContext plan) = true ∧
      EncodedKey (storeContext plan) (ascii "ListBucketResult/Contents/Key")
        (queryEscape (ascii "tenant/a+b")) (ascii "a+b") := by
  have hcheck : okAnd (planS3Operation encodedListRequest (ascii "vbk") []) (fun plan =>
      plan.responseProfile.listsKeys && urlEncoded (storeContext plan)) = true := by
    decide +kernel
  obtain ⟨plan, hplan, htest⟩ := exists_of_okAnd hcheck
  rw [Bool.and_eq_true] at htest
  refine ⟨plan, hplan, htest.1, htest.2, ?_⟩
  have hiff := (encoded_listing_iff (c := storeContext plan) htest.1 htest.2).1
    (ascii "ListBucketResult/Contents/Key") (queryEscape (ascii "tenant/a+b")) (ascii "a+b")
    (.inr ⟨by decide, by decide⟩) (formEncodes_queryEscape _)
  exact hiff.mpr (show (32 : UInt8) ∉ ascii "tenant/" ++ ascii "a+b" by decide)

/-- A space is shown as a plus. -/
theorem encoded_space_lost :
    ∃ plan, planS3Operation encodedListRequest (ascii "vbk") [] = .ok plan ∧
      FormEncodes (ascii "tenant/" ++ ascii "a b") (ascii "tenant%2Fa+b") ∧
      ¬ EncodedKey (storeContext plan) (ascii "ListBucketResult/Contents/Key")
        (ascii "tenant%2Fa+b") (ascii "a b") := by
  have hcheck : okAnd (planS3Operation encodedListRequest (ascii "vbk") []) (fun plan =>
      okAnd (virtualizeResponseKey (storeContext plan) (ascii "ListBucketResult/Contents/Key")
        (ascii "tenant%2Fa+b")) (fun out => out = ascii "a%2Bb")) = true := by
    decide +kernel
  obtain ⟨plan, hplan, htest⟩ := exists_of_okAnd hcheck
  obtain ⟨out, hout, htext⟩ := exists_of_okAnd htest
  refine ⟨plan, hplan, ?_, ?_⟩
  · rw [show ascii "tenant%2Fa+b" = queryEscape (ascii "tenant/" ++ ascii "a b") by decide]
    exact formEncodes_queryEscape _
  · rintro ⟨⟨out', hout', hread⟩, -⟩
    obtain rfl : out = out' := Except.ok.inj (hout.symm.trans hout')
    rw [of_decide_eq_true htext] at hread
    exact absurd hread (by decide)

/-! ## Common prefixes -/

/-- A text up to and including the first occurrence of a delimiter. -/
def upThrough (delimiter : Bytes) : Bytes → Option Bytes
  | [] => none
  | b :: s =>
      if hasPrefix (b :: s) delimiter then some delimiter
      else (upThrough delimiter s).map (b :: ·)

/-- The common prefix S3 derives from a stored key, for a requested prefix and a delimiter. -/
def commonPrefix (requested delimiter key : Bytes) : Option Bytes :=
  if delimiter ≠ [] ∧ hasPrefix key requested = true then
    (upThrough delimiter (key.drop requested.length)).map (requested ++ ·)
  else none

/-- The common prefixes of a listing. -/
def commonPrefixes (requested delimiter : Bytes) (keys : List Bytes) : List Bytes :=
  (keys.filterMap (commonPrefix requested delimiter)).dedup

/-- The segment a text ends in. -/
def lastSegment (s : Bytes) : Bytes := ((split 47 s).getLast?).getD []

theorem upThrough_spec {delimiter s cut : Bytes} (h : upThrough delimiter s = some cut) :
    cut <+: s ∧ delimiter <:+ cut := by
  induction s generalizing cut with
  | nil => exact nomatch h
  | cons b s ih =>
      rw [upThrough] at h
      by_cases hhere : hasPrefix (b :: s) delimiter = true
      · rw [if_pos hhere] at h
        cases h
        exact ⟨hasPrefix_iff.mp hhere, List.suffix_rfl⟩
      · rw [if_neg hhere] at h
        obtain ⟨cut', hcut', rfl⟩ := Option.map_eq_some_iff.mp h
        obtain ⟨hpre, hsuffix⟩ := ih hcut'
        exact ⟨List.cons_prefix_cons.mpr ⟨rfl, hpre⟩, hsuffix.trans (List.suffix_cons _ _)⟩

/-- A common prefix is cut from its key, after the delimiter. -/
theorem commonPrefix_spec {requested delimiter key common : Bytes}
    (h : commonPrefix requested delimiter key = some common) :
    common <+: key ∧ common ≠ [] := by
  rw [commonPrefix] at h
  split at h
  · next hcond =>
      obtain ⟨cut, hcut, rfl⟩ := Option.map_eq_some_iff.mp h
      obtain ⟨hpre, hsuffix⟩ := upThrough_spec hcut
      obtain ⟨rest, rfl⟩ := hasPrefix_iff.mp hcond.2
      rw [List.drop_left] at hpre
      refine ⟨(List.prefix_append_right_inj requested).mpr hpre, fun hnil => ?_⟩
      rw [(List.append_eq_nil_iff.mp hnil).2] at hsuffix
      exact hcond.1 (List.suffix_nil.mp hsuffix)
  · cases h

/-- A text that is cut off has no control character that the whole had not. -/
theorem hasControl_append {s t : Bytes} (h : hasControl s = true) :
    hasControl (s ++ t) = true := by
  fun_induction hasControl s with
  | case1 => exact nomatch h
  | case2 b s ih =>
      rw [Bool.or_eq_true] at h
      rw [List.cons_append, List.cons_append, hasControl, Bool.or_eq_true]
      exact h.imp_right ih
  | case3 b s hne ih =>
      rw [Bool.or_eq_true, Bool.or_eq_true] at h
      have hnext : ∀ b' s', b = 0xC2 → s ++ t = b' :: s' → False := by
        rintro b' s' rfl -
        rcases h with (hlow | hdel) | hrest
        · exact absurd hlow (by decide)
        · exact absurd hdel (by decide)
        · cases s with
          | nil => exact nomatch hrest
          | cons b'' s'' => exact hne b'' s'' rfl rfl
      rw [List.cons_append, hasControl.eq_3 _ _ hnext, Bool.or_eq_true, Bool.or_eq_true]
      exact h.imp_right ih

/-- The last slash of a text. -/
theorem last_slash (s : Bytes) :
    (47 : UInt8) ∉ s ∨ ∃ a b, s = a ++ 47 :: b ∧ (47 : UInt8) ∉ b := by
  induction s with
  | nil => exact .inl List.not_mem_nil
  | cons c s ih =>
      rcases ih with hnone | ⟨a, b, rfl, hb⟩
      · by_cases hc : c = 47
        · exact .inr ⟨[], s, by rw [hc]; rfl, hnone⟩
        · refine .inl fun hmem => ?_
          rcases List.mem_cons.mp hmem with h | h
          · exact hc h.symm
          · exact hnone h
      · exact .inr ⟨c :: a, b, rfl, hb⟩

/-- Cut off a text without dot segments, only the last segment can be one. -/
theorem noDots_of_prefix {s t : Bytes} (h : NoDots (s ++ t)) :
    NoDots s ↔ isDotSegment (lastSegment s) = false := by
  rcases last_slash s with hnone | ⟨a, b, rfl, hb⟩
  · rw [NoDots, lastSegment, split_of_notMem hnone]
    simp
  · rw [NoDots, List.append_assoc, List.cons_append, split_append] at h
    rw [NoDots, lastSegment, split_append, split_of_notMem hb, List.getLast?_concat]
    constructor
    · intro hall
      exact hall b (List.mem_append_right _ List.mem_cons_self)
    · intro hlast segment hmem
      rcases List.mem_append.mp hmem with hmem | hmem
      · exact h segment (List.mem_append_left _ hmem)
      · rw [List.mem_singleton.mp hmem]
        exact hlast

/-- What a valid key is. -/
theorem validateVirtualObjectKey_ok_iff (key : Bytes) :
    validateVirtualObjectKey key = .ok () ↔
      validString key = true ∧ ((0 : UInt8) ∉ key ∧ (92 : UInt8) ∉ key) ∧
        hasControl key = false ∧ NoDots key := by
  rw [validateVirtualObjectKey, seq_ok_iff, seq_ok_iff, seq_ok_iff, refuseIf_ok_iff,
    refuseIf_ok_iff, refuseIf_ok_iff, checkEach_ok_iff]
  simp only [refuseIf_ok_iff, NoDots, isDotSegment]
  simp [and_assoc]

/-- A prefix of a valid key is valid if it is not cut inside a character or after a dot
    segment. -/
theorem valid_of_prefix {key common : Bytes} (hkey : validateVirtualObjectKey key = .ok ())
    (hcut : common <+: key) :
    validateVirtualObjectKey common = .ok () ↔
      validString common = true ∧ isDotSegment (lastSegment common) = false := by
  obtain ⟨rest, rfl⟩ := hcut
  obtain ⟨-, hbytes, hcontrol, hdots⟩ := (validateVirtualObjectKey_ok_iff _).mp hkey
  rw [validateVirtualObjectKey_ok_iff, noDots_of_prefix hdots]
  constructor
  · rintro ⟨hstring, -, -, hlast⟩
    exact ⟨hstring, hlast⟩
  · rintro ⟨hstring, hlast⟩
    refine ⟨hstring, ⟨?_, ?_⟩, ?_, hlast⟩
    · exact fun hmem => hbytes.1 (List.mem_append_left _ hmem)
    · exact fun hmem => hbytes.2 (List.mem_append_left _ hmem)
    · rw [Bool.eq_false_iff]
      intro hctl
      rw [hasControl_append hctl] at hcontrol
      exact nomatch hcontrol

/-- **COMMON PREFIXES**: a common prefix of stored keys is let through and shown as it is,
    wherever one may be listed, exactly when the delimiter did not cut a key inside a
    character or right after a dot segment. -/
theorem common_prefix_shown_iff {c : ResponseContext}
    (hlist : c.plan.responseProfile.listsKeys = true) {keys : List Bytes}
    (hkeys : ∀ key ∈ keys, validateVirtualObjectKey key = .ok ())
    {requested delimiter common : Bytes}
    (hcommon : common ∈ commonPrefixes requested delimiter keys) {text : Bytes}
    (hsent : decodeListed c text = some (c.pathPrefix ++ common)) {path : Bytes}
    (hpath : addressableKeyValue path = true ∧ actualObjectKey path = false) :
    virtualizeResponseKey c path text = .ok (shownKey c common) ↔
      validString common = true ∧ isDotSegment (lastSegment common) = false := by
  obtain ⟨key, hkey, hcut⟩ := List.mem_filterMap.mp (List.mem_dedup.mp hcommon)
  obtain ⟨hpre, hne⟩ := commonPrefix_spec hcut
  rw [← valid_of_prefix (hkeys key hkey) hpre]
  have hnonempty : c.pathPrefix ++ common ≠ [] := fun h => hne (List.append_eq_nil_iff.mp h).2
  have hchecked := validateAddressableKey_ok_iff (k := common) hpath.1
  constructor
  · intro h
    rw [virtualizeResponseKey_inside hlist hsent hnonempty] at h
    rcases hchecked.mp (seq_ok_iff.mp h).1 with ⟨hnil, -⟩ | ⟨-, hvalid⟩
    · exact absurd hnil hne
    · exact hvalid
  · intro hvalid
    exact virtualizeResponseKey_of hlist hsent (hchecked.mpr (.inr ⟨hne, hvalid⟩))

/-- The sample listing with a delimiter. -/
def delimitedListRequest (delimiter : String) : Request :=
  { listRequest with
    url := { path := ascii "/vbk", rawQuery := ascii ("list-type=2&delimiter=" ++ delimiter) }
    tokens := isToken_of_mem_empty }

/-- A folder of the sample mapping. -/
theorem common_prefix_shown_of_folder :
    ∃ plan, planS3Operation (delimitedListRequest "/") (ascii "vbk") [] = .ok plan ∧
      ascii "a/" ∈ commonPrefixes (plan.query.get (ascii "prefix"))
        (plan.query.get (ascii "delimiter")) [ascii "a/b", ascii "a/c"] ∧
      virtualizeResponseKey (storeContext plan) (ascii "ListBucketResult/CommonPrefixes/Prefix")
        (ascii "tenant/a/") = .ok (shownKey (storeContext plan) (ascii "a/")) := by
  have hcheck : okAnd (planS3Operation (delimitedListRequest "/") (ascii "vbk") []) (fun plan =>
      plan.responseProfile.listsKeys &&
      decodeListed (storeContext plan) (ascii "tenant/a/") = some (ascii "tenant/a/") &&
      ascii "a/" ∈ commonPrefixes (plan.query.get (ascii "prefix"))
        (plan.query.get (ascii "delimiter")) [ascii "a/b", ascii "a/c"]) = true := by
    decide +kernel
  obtain ⟨plan, hplan, htest⟩ := exists_of_okAnd hcheck
  rw [Bool.and_eq_true, Bool.and_eq_true, decide_eq_true_eq, decide_eq_true_eq] at htest
  refine ⟨plan, hplan, htest.2, ?_⟩
  exact (common_prefix_shown_iff (c := storeContext plan) htest.1.1 (by decide) htest.2
    htest.1.2 (by decide)).mpr (by decide)

/-- The common prefix of a hidden file is refused. -/
theorem dot_prefix_refused :
    ∃ plan reason, planS3Operation (delimitedListRequest ".") (ascii "vbk") [] = .ok plan ∧
      normalizeVBucketConfig storeHosts sampleCrypto (some storeConfig) = .ok storeConfig ∧
      validateVirtualObjectKey (ascii ".b") = .ok () ∧
      commonPrefixes (plan.query.get (ascii "prefix")) (plan.query.get (ascii "delimiter"))
        [ascii ".b"] = [ascii "."] ∧
      virtualizeResponseKey (storeContext plan) (ascii "ListBucketResult/CommonPrefixes/Prefix")
        (ascii "tenant/" ++ ascii ".") = .error reason := by
  have hcheck : okAnd (planS3Operation (delimitedListRequest ".") (ascii "vbk") []) (fun plan =>
      commonPrefixes (plan.query.get (ascii "prefix")) (plan.query.get (ascii "delimiter"))
        [ascii ".b"] = [ascii "."] &&
      !okAnd (virtualizeResponseKey (storeContext plan)
        (ascii "ListBucketResult/CommonPrefixes/Prefix") (ascii "tenant/" ++ ascii "."))
          (fun _ => true)) = true := by
    decide +kernel
  obtain ⟨plan, hplan, htest⟩ := exists_of_okAnd hcheck
  rw [Bool.and_eq_true, decide_eq_true_eq, Bool.not_eq_true'] at htest
  cases hout : virtualizeResponseKey (storeContext plan)
      (ascii "ListBucketResult/CommonPrefixes/Prefix") (ascii "tenant/" ++ ascii ".") with
  | ok out =>
      rw [hout] at htest
      exact nomatch htest.2
  | error reason => exact ⟨plan, reason, hplan, by decide +kernel, by decide, htest.1, hout⟩

end S3
