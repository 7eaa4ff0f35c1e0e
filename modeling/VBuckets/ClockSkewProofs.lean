import VBuckets.SigningProofs

/-! # The clock skew

    `verifySignatureAtTime` compares the server's clock with the date of a request by
    `now.Sub(requestTime)`, a duration of 64 bits that saturates, and takes its absolute
    value by negation, which leaves the least duration negative.

    The check is exact while the difference fits; beyond that the two ends behave
    differently: a date too far ahead passes every bound, a date too far behind only the
    largest one. -/

namespace S3

open ByteString Url Http Mapping

/-! ## The check -/

/-- The difference of times is one the check measures. -/
structure Measured (now requestTime maxSkew : Int) : Prop where
  ahead : Time.minDuration < now - requestTime
  behind : now - requestTime ≤ Time.maxDuration ∨ maxSkew < Time.maxDuration

/-- The date of a request is within the skew of the clock, as integers. -/
def Fresh (now requestTime maxSkew : Int) : Prop :=
  (now - requestTime).natAbs ≤ maxSkew

section
variable {now requestTime maxSkew : Int}

theorem fresh_of_measured (hpos : 0 < maxSkew) (hm : Measured now requestTime maxSkew)
    (h : tooSkewed now requestTime maxSkew = false) : Fresh now requestTime maxSkew := by
  obtain ⟨hahead, hbehind⟩ := hm
  rw [Bool.eq_false_iff] at h
  by_contra hfar
  refine h ?_
  simp only [tooSkewed, Bool.and_eq_true, decide_eq_true_eq]
  refine ⟨hpos, ?_⟩
  simp only [Fresh, Time.sub, Time.neg, Time.minDuration, Time.maxDuration] at *
  omega

/-- Outside the range measured the check passes a date that is not fresh. -/
theorem passes_of_not_measured (hpos : 0 < maxSkew) (hmax : maxSkew ≤ Time.maxDuration)
    (hm : ¬ Measured now requestTime maxSkew) :
    tooSkewed now requestTime maxSkew = false ∧ ¬ Fresh now requestTime maxSkew := by
  have hout : now - requestTime ≤ Time.minDuration ∨
      Time.maxDuration < now - requestTime ∧ Time.maxDuration ≤ maxSkew := by
    by_contra hc
    rw [not_or, not_and_or, not_le, not_lt, not_le] at hc
    exact hm ⟨hc.1, hc.2⟩
  constructor
  · rw [Bool.eq_false_iff]
    intro hskewed
    simp only [tooSkewed, Bool.and_eq_true, decide_eq_true_eq] at hskewed
    obtain ⟨-, hlarge⟩ := hskewed
    simp only [Time.sub, Time.neg, Time.minDuration, Time.maxDuration] at hout hmax hlarge
    omega
  · simp only [Fresh, Time.minDuration, Time.maxDuration] at hout hmax ⊢
    omega

end

/-! ## Requests that pass the other checks -/

section
variable {cr : Crypto} {r : Request} {authInfo : AuthInfo} {secretKey : Bytes}
  {now requestTime : Time.Instant} {maxSkew : Int}

/-- An accepted request has a date that is not too far away. -/
theorem verified_not_skewed
    (hdate : Time.parseAmzDate (headerGet r (ascii "X-Amz-Date")) = some requestTime)
    (h : verifySignatureAtTime cr r authInfo secretKey now maxSkew = .ok ()) :
    tooSkewed now requestTime maxSkew = false := by
  obtain ⟨_, -, hrest⟩ := bind_ok h
  obtain ⟨_, htimes, -⟩ := bind_ok hrest
  simp only [checkTimes, hdate] at htimes
  cases hskew : tooSkewed now requestTime maxSkew with
  | false => rfl
  | true =>
      rw [hskew] at htimes
      split at htimes
      · cases htimes
      · split at htimes
        · cases htimes
        · split at htimes
          · cases htimes
          · cases htimes

end

/-- A read dated by a text. -/
def datedRead (datetime : Bytes) : Request where
  method := methodGet
  host := ascii "h"
  url := { path := ascii "/vbk/k" }
  header := (Header.setOne ∅ (ascii "X-Amz-Content-Sha256") (ascii "UNSIGNED-PAYLOAD")).setOne
    (ascii "X-Amz-Date") datetime
  contentLength := 0
  transferEncoding := []
  tls := false
  body := none
  tokens := by
    intro name hname
    rcases (AList.mem_insert _).mp hname with rfl | hname
    · decide
    · rcases (AList.mem_insert _).mp hname with rfl | hname
      · decide
      · exact absurd hname (AList.notMem_empty _)

/-- The authorization that goes with it under a secret. -/
def datedAuthInfo (cr : Crypto) (secretKey datetime : Bytes) (requestTime : Time.Instant) :
    AuthInfo :=
  let date := Time.formatDate requestTime
  let scope := date ++ ascii "/" ++ ascii "r" ++ ascii "/s3/aws4_request"
  let signedHeaders := [ascii "host", ascii "x-amz-content-sha256", ascii "x-amz-date"]
  { accessKeyID := ascii "k"
    date := date
    region := ascii "r"
    service := ascii "s3"
    signedHeaders := signedHeaders
    signature := signatureForCanonicalRequest cr datetime scope
      (buildCanonicalRequest (datedRead datetime) signedHeaders)
      (computeSigningKey cr secretKey date (ascii "r") (ascii "s3"))
    scope := scope }

theorem checkSignedRequest_dated (cr : Crypto) (secretKey datetime : Bytes)
    (requestTime : Time.Instant) :
    checkSignedRequest (datedRead datetime) (datedAuthInfo cr secretKey datetime requestTime) =
      .ok () := rfl

/-- The dated read is accepted whenever its date is not too far away. -/
theorem verify_dated {cr : Crypto} {secretKey datetime : Bytes} {now requestTime : Time.Instant}
    {maxSkew : Int} (hdate : Time.parseAmzDate datetime = some requestTime)
    (hskew : tooSkewed now requestTime maxSkew = false) :
    verifySignatureAtTime cr (datedRead datetime) (datedAuthInfo cr secretKey datetime requestTime)
      secretKey now maxSkew = .ok () := by
  have hget : headerGet (datedRead datetime) (ascii "X-Amz-Date") = datetime := rfl
  have hne : datetime ≠ [] := by
    rintro rfl
    exact nomatch hdate
  have htimes : checkTimes (datedRead datetime) (datedAuthInfo cr secretKey datetime requestTime)
      now maxSkew = .ok () := by
    simp only [checkTimes, hget, if_neg hne, hdate, datedAuthInfo, ne_eq, not_true, if_false, hskew,
      Bool.false_eq_true]
  rw [verifySignatureAtTime, checkSignedRequest_dated, ok_bind, htimes, ok_bind, hget]
  exact if_neg (fun h => h rfl)

/-- **THE CLOCK SKEW** is checked exactly when the difference is one the check measures: the
    date is less than 2^63 nanoseconds ahead of the clock, and it is less than that behind it
    or the skew allowed is not the largest duration. -/
theorem skew_checked_iff (cr : Crypto) (secretKey : Bytes) {now requestTime maxSkew : Int}
    (hpos : 0 < maxSkew) (hmax : maxSkew ≤ Time.maxDuration) {datetime : Bytes}
    (hdate : Time.parseAmzDate datetime = some requestTime) :
    (∀ r authInfo, headerGet r (ascii "X-Amz-Date") = datetime →
      verifySignatureAtTime cr r authInfo secretKey now maxSkew = .ok () →
      (now - requestTime).natAbs ≤ maxSkew) ↔ Measured now requestTime maxSkew := by
  constructor
  · intro h
    by_contra hm
    obtain ⟨hpass, hfar⟩ := passes_of_not_measured hpos hmax hm
    exact hfar (h (datedRead datetime) _ rfl (verify_dated hdate hpass))
  · intro hm r authInfo hget hverify
    rw [← hget] at hdate
    exact fresh_of_measured hpos hm (verified_not_skewed hdate hverify)

/-- A request dated a minute after the epoch, with a skew of fifteen minutes. -/
theorem skew_checked_at_epoch :
    verifySignatureAtTime sampleCrypto (datedRead (ascii "19700101T000100Z"))
      (datedAuthInfo sampleCrypto (ascii "s") (ascii "19700101T000100Z") 60000000000)
      (ascii "s") 0 900000000000 = .ok () ∧
    ((0 : Int) - 60000000000).natAbs ≤ (900000000000 : Int) := by
  have hdate : Time.parseAmzDate (ascii "19700101T000100Z") = some 60000000000 := by
    decide +kernel
  have hverify : verifySignatureAtTime sampleCrypto (datedRead (ascii "19700101T000100Z"))
      (datedAuthInfo sampleCrypto (ascii "s") (ascii "19700101T000100Z") 60000000000)
      (ascii "s") 0 900000000000 = .ok () := verify_dated hdate (by decide)
  have hmeasured : Measured 0 60000000000 900000000000 := ⟨by decide, Or.inl (by decide)⟩
  exact ⟨hverify, (skew_checked_iff sampleCrypto (ascii "s") (by decide) (by decide) hdate).mpr
    hmeasured _ _ rfl hverify⟩

/-- On the first of January 2026, with a skew of fifteen minutes, a request dated at the end
    of the year 9999 is accepted. -/
theorem far_future_accepted :
    Time.parseAmzDate (ascii "20260101T000000Z") = some 1767225600000000000 ∧
    Time.parseAmzDate (ascii "99991231T235959Z") = some 253402300799000000000 ∧
    (∀ cr : Crypto, verifySignatureAtTime cr (datedRead (ascii "99991231T235959Z"))
      (datedAuthInfo cr (ascii "s") (ascii "99991231T235959Z") 253402300799000000000)
      (ascii "s") 1767225600000000000 900000000000 = .ok ()) ∧
    ¬ ((1767225600000000000 : Int) - 253402300799000000000).natAbs ≤ (900000000000 : Int) := by
  have hdate : Time.parseAmzDate (ascii "99991231T235959Z") = some 253402300799000000000 := by
    decide +kernel
  refine ⟨by decide +kernel, hdate, fun cr => verify_dated hdate ?_, by decide⟩
  decide

end S3
