import VBuckets.CallProofs
import Mathlib.Data.Finset.Basic

/-! # A conforming control plane

    The control plane's history is a LOG: one delta for each revision, and the state each
    of them leaves: the value of every key, and the set of base domains.  A base domain is
    identified by its normal form, so two spellings of one domain are one domain.

    A peer conforms to a log if it answers lookups from it and if each of its streams is
    what the protocol promises (`api/v1/controlplane.proto`): a snapshot that lists every
    domain of its revision once, or nothing, and from there on the log's deltas without
    gaps.  Cursors are left open: a frame whose cursor the client does not like is
    refused, whatever it says. -/

namespace ControlPlane

open ByteString Interleaving

structure Log where
  event : Nat → Event
  value : (l : Lane) → Nat → l.Key → Option l.Value
  initial : Finset Bytes
  /-- A value changes only at a revision whose delta names its key. -/
  changed : ∀ l r key, value l (r + 1) key ≠ value l r key →
    ∃ d : Invalidation l, (event (r + 1)).invalidation = some ⟨l, d⟩ ∧ d.key = key
  /-- A removal leaves no value. -/
  removed : ∀ l r (d : Invalidation l), (event r).invalidation = some ⟨l, d⟩ →
    d.remove = true → value l r d.key = none

section
variable (hasETLDPlusOne : Bytes → Bool)

/-- What a delta does to the set of base domains. -/
def domainsAfter (domains : Finset Bytes) : Event → Finset Bytes
  | .baseHost (some d) =>
      match Domain.normalizeBaseDomain hasETLDPlusOne d.baseHost with
      | .error _ => domains
      | .ok domain => if d.remove then domains.erase domain else insert domain domains
  | _ => domains

/-- The base domains of a revision, normalised. -/
def Log.domains (log : Log) : Nat → Finset Bytes
  | 0 => log.initial
  | r + 1 => domainsAfter hasETLDPlusOne (log.domains r) (log.event (r + 1))

/-! ## Streams -/

/-- Where a stream is: nothing sent yet, inside a snapshot of which some domains have been
    listed, or at a revision of the log. -/
inductive Phase where
  | opening
  | snapshot (cut : Nat) (listed : Finset Bytes)
  | live (revision : Nat)

/-- The frames that may follow at a revision of the log. -/
def Log.follow (log : Log) (revision : Nat) (delta : WatchEvent) : Option Phase :=
  match delta.event with
  | some .synchronizationBarrier | some .heartbeat =>
      if delta.revision = revision then some (.live revision) else none
  | some .snapshotBegin => none
  | some event =>
      if delta.revision = revision + 1 ∧ event = log.event (revision + 1) then
        some (.live (revision + 1))
      else none
  | none => none

/-- The frames that may follow inside a snapshot.  A domain the client cannot read is
    none of the log's domains. -/
def Log.list (log : Log) (cut : Nat) (listed : Finset Bytes) (delta : WatchEvent) :
    Option Phase :=
  match delta.event with
  | some (.baseHost (some d)) =>
      match Domain.normalizeBaseDomain hasETLDPlusOne d.baseHost with
      | .error _ => some (.snapshot cut listed)
      | .ok domain =>
          if d.remove = false ∧ domain ∈ log.domains hasETLDPlusOne cut ∧ domain ∉ listed then
            some (.snapshot cut (insert domain listed))
          else none
  | some .synchronizationBarrier =>
      if delta.revision = cut ∧ listed = log.domains hasETLDPlusOne cut then some (.live cut)
      else none
  | _ => none

/-- One frame of a stream that was opened after revision `after`. -/
def Log.next (log : Log) (after : Nat) (phase : Phase) (delta : WatchEvent) : Option Phase :=
  match phase with
  | .opening =>
      if delta.event = some .snapshotBegin then some (.snapshot delta.revision ∅)
      else log.follow after delta
  | .snapshot cut listed => log.list hasETLDPlusOne cut listed delta
  | .live revision => log.follow revision delta

/-- The phase a stream has reached with the given frames. -/
def Log.phase (log : Log) (after : Nat) (frames : List WatchEvent) : Option Phase :=
  frames.foldlM (log.next hasETLDPlusOne after) .opening

theorem Log.phase_concat (log : Log) (after : Nat) (frames : List WatchEvent)
    (delta : WatchEvent) :
    log.phase hasETLDPlusOne after (frames ++ [delta]) =
      (log.phase hasETLDPlusOne after frames).bind
        (fun p => log.next hasETLDPlusOne after p delta) := by
  simp [Log.phase, List.foldlM_append]

end

/-! ## The peer -/

section
variable (deps : Deps) {α : Type}

/-- A lookup response reports the value of its key at its revision. -/
def Log.Reports (log : Log) (l : Lane) (key : l.Key) (resp : l.Response) : Prop :=
  ∀ e, l.responseEntry deps resp = .ok e → log.value l e.revision key = e.value

/-- What a conforming peer may answer and send; everything else is unrestricted. -/
def Log.guard (log : Log) (α : Type) : Guard (machine deps α) where
  op := fun o x _ =>
    match o with
    | .rpcLookup l key _ =>
        ∀ resp, Choice.lookupResponse x l = .ok (some resp) → log.Reports deps l key resp
    | _ => True
  env := fun e s =>
    match e with
    | .receive delta _ => ∀ st, SystemState.run s = .streaming st →
        log.phase deps.hasETLDPlusOne st.afterRevision (st.received ++ [delta]) ≠ none
    | _ => True

/-- A test for single decisions: frames must continue their stream, and responses to
    lookups must be among those trusted beforehand. -/
def Log.check (log : Log) (trusted : (l : Lane) → l.Key → l.Response → Bool)
    (label : Label (machine deps α)) (c : Config (machine deps α)) : Bool :=
  match label with
  | .env (Env.receive delta _) =>
      match SystemState.run c.shared with
      | .streaming st =>
          (log.phase deps.hasETLDPlusOne st.afterRevision (st.received ++ [delta])).isSome
      | _ => true
  | .thread t x =>
      match c.pool[t]? with
      | some (.act (Op.rpcLookup l key _) _) =>
          match Choice.lookupResponse x l with
          | .ok (some resp) => trusted l key resp
          | _ => true
      | _ => true
  | _ => true

theorem Log.admits_of_check {log : Log} (trusted : (l : Lane) → l.Key → l.Response → Bool)
    (htrusted : ∀ l key resp, trusted l key resp = true → log.Reports deps l key resp)
    (label : Label (machine deps α)) (c : Config (machine deps α))
    (h : log.check deps trusted label c = true) : (log.guard deps α).admits label c := by
  cases label with
  | idle | spawn => trivial
  | env e =>
      cases e with
      | receive delta now =>
          intro st hrun
          simp only [Log.check, hrun] at h
          exact Option.isSome_iff_ne_none.mp h
      | _ => trivial
  | thread t x =>
      intro o k hp
      cases o with
      | rpcLookup l key minimum =>
          intro resp hresp
          simp only [Log.check, hp, hresp] at h
          exact htrusted l key resp h
      | _ => trivial

end

/-! ## What the next frame says -/

section
variable {hasETLDPlusOne : Bytes → Bool} {log : Log} {delta : WatchEvent}

/-- At a revision, barriers and heartbeats repeat it. -/
theorem Log.follow_idle {revision : Nat} {p : Phase}
    (h : log.follow revision delta = some p)
    (hev : delta.event = some .synchronizationBarrier ∨ delta.event = some .heartbeat) :
    p = .live revision := by
  simp only [Log.follow] at h
  rcases hev with hev | hev
  · simp only [hev] at h
    split at h
    · exact (Option.some.inj h).symm
    · exact nomatch h
  · simp only [hev] at h
    split at h
    · exact (Option.some.inj h).symm
    · exact nomatch h

/-- Everything else is the log's next delta. -/
theorem Log.follow_delta {revision : Nat} {p : Phase} {event : Event}
    (h : log.follow revision delta = some p) (hev : delta.event = some event)
    (hb : event ≠ .synchronizationBarrier) (hh : event ≠ .heartbeat) :
    p = .live (revision + 1) ∧ delta.revision = revision + 1 ∧
      event = log.event (revision + 1) := by
  have entity : ∀ {e : Event},
      (if delta.revision = revision + 1 ∧ e = log.event (revision + 1) then
        some (Phase.live (revision + 1)) else none) = some p →
      p = .live (revision + 1) ∧ delta.revision = revision + 1 ∧
        e = log.event (revision + 1) := by
    intro e he
    by_cases hc : delta.revision = revision + 1 ∧ e = log.event (revision + 1)
    · rw [if_pos hc] at he
      exact ⟨(Option.some.inj he).symm, hc⟩
    · rw [if_neg hc] at he
      exact nomatch he
  simp only [Log.follow, hev] at h
  cases event with
  | synchronizationBarrier => exact absurd rfl hb
  | heartbeat => exact absurd rfl hh
  | snapshotBegin => exact nomatch h
  | credentials | vbucket | baseHost => exact entity h

/-- The domains of the next revision, by what its delta says. -/
theorem Log.domains_succ (log : Log) (revision : Nat) {event : Event}
    (h : event = log.event (revision + 1)) :
    log.domains hasETLDPlusOne (revision + 1) =
      domainsAfter hasETLDPlusOne (log.domains hasETLDPlusOne revision) event := by
  rw [h]; rfl

end

end ControlPlane
