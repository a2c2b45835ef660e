/-
# What a pairing proof stands for

The proof of a client is a tag of its transcript, in which the client id and the capabilities
stand between line feeds, around two nonces of fixed length.  As long as neither has a line feed
of its own, the transcript can be taken apart again (`transcript_injective`).  With line feeds it
is not so: a proof for the capability `a\nb` is one for `a` and `b`, and a client id can reach
into the nonce (`transcripts_collide`).

A run of the server is a list of calls, and its log says which offers it created and which proofs
it accepted.  Per id the offers consumed are the first ones created (`consumes_serveAll`).
-/

import PersonalAgent.Lib.Emit
import PersonalAgent.Lib.OrdMap
import PersonalAgent.Plugins.Model

namespace PersonalAgent.Plugins

open Lib List Std.ExtTreeMap PairingServer

/-! ### Transcripts -/

/-- What a proof is made for. -/
structure PairingRequest where
  clientId : String
  clientNonce : Nonce
  capabilities : Names

def PairingRequest.transcript (request : PairingRequest) (offer : PairingOffer) : List UInt8 :=
  pairingTranscript offer.id request.clientId offer.serverNonce request.clientNonce
    request.capabilities

def lineFeed : UInt8 := 10

/-- A text without a line feed. -/
def OneLine (text : String) : Prop := lineFeed ∉ utf8 text

theorem utf8_append (a b : String) : utf8 (a ++ b) = utf8 a ++ utf8 b := by
  unfold utf8
  rw [String.toByteArray_append, ByteArray.data_append, Array.toList_append]

theorem utf8_injective : Function.Injective utf8 := fun _ _ h =>
  String.toByteArray_inj.mp (ByteArray.ext (Array.toList_inj.mp h))

theorem utf8_lineFeed : utf8 "\n" = [lineFeed] := by decide +kernel

/-- Texts that each start after a line feed are the fields behind it. -/
theorem flatMap_lineFeed (names : List String) :
    names.flatMap (fun name => utf8 "\n" ++ utf8 name) =
      [lineFeed].intercalate ([] :: names.map utf8) := by
  induction names with
  | nil => rfl
  | cons name names ih =>
    rw [flatMap_cons, ih, map_cons, intercalate_cons_cons, utf8_lineFeed]
    cases names with
    | nil => simp [List.intercalate]
    | cons next names =>
      rw [map_cons, intercalate_cons_cons, intercalate_cons_cons]
      simp only [nil_append, append_assoc]

/-- Names without line feeds are told apart by what is written. -/
theorem eq_of_flatMap_eq {names names' : List String} (h : ∀ name ∈ names, OneLine name)
    (h' : ∀ name ∈ names', OneLine name)
    (heq : names.flatMap (fun name => utf8 "\n" ++ utf8 name) =
      names'.flatMap (fun name => utf8 "\n" ++ utf8 name)) : names = names' := by
  have hfields {names : List String} (h : ∀ name ∈ names, OneLine name) :
      List.splitOn lineFeed (names.flatMap fun name => utf8 "\n" ++ utf8 name) =
        [] :: names.map utf8 := by
    rw [flatMap_lineFeed]
    refine splitOn_intercalate lineFeed ?_ (cons_ne_nil _ _)
    refine forall_mem_cons.mpr ⟨not_mem_nil, fun piece hpiece => ?_⟩
    obtain ⟨name, hname, rfl⟩ := mem_map.mp hpiece
    exact h name hname
  have hmap := hfields h
  rw [heq, hfields h'] at hmap
  exact (map_injective_iff.mpr utf8_injective (List.cons.inj hmap).2).symm

/-- A field that ends at the first line feed. -/
theorem append_cons_inj {a a' b b' : List UInt8} (ha : lineFeed ∉ a) (ha' : lineFeed ∉ a')
    (h : a ++ lineFeed :: b = a' ++ lineFeed :: b') : a = a' ∧ b = b' := by
  have hfirst {a b : List UInt8} (ha : lineFeed ∉ a) :
      (a ++ lineFeed :: b).takeWhile (· ≠ lineFeed) = a := by
    have hbefore : ∀ x ∈ a, decide (x ≠ lineFeed) = true := fun x hx =>
      decide_eq_true fun (heq : x = lineFeed) => ha (heq ▸ hx)
    rw [takeWhile_append_of_pos hbefore]
    simp
  have heq : a = a' := by rw [← hfirst ha, h, hfirst ha']
  subst heq
  exact ⟨rfl, (List.cons.inj (append_cancel_left h)).2⟩

/-- **Transcripts are unambiguous without line feeds.** -/
theorem transcript_injective {offer : PairingOffer} {request request' : PairingRequest}
    (hclient : OneLine request.clientId) (hclient' : OneLine request'.clientId)
    (hnames : ∀ name ∈ request.capabilities, OneLine name)
    (hnames' : ∀ name ∈ request'.capabilities, OneLine name)
    (h : request.transcript offer = request'.transcript offer) : request = request' := by
  unfold PairingRequest.transcript pairingTranscript at h
  simp only [utf8_append, append_assoc, append_cancel_left_eq] at h
  rw [utf8_lineFeed, singleton_append, singleton_append] at h
  obtain ⟨hid, hrest⟩ := append_cons_inj hclient hclient' h
  obtain ⟨hnonce, hcaps⟩ := append_inj (append_cancel_left hrest)
    (request.clientNonce.2.trans request'.clientNonce.2.symm)
  have hset : request.capabilities = request'.capabilities :=
    Std.ExtTreeSet.toList_inj.mp (eq_of_flatMap_eq
      (fun name hname => hnames name (Std.ExtTreeSet.mem_toList.mp hname))
      (fun name hname => hnames' name (Std.ExtTreeSet.mem_toList.mp hname)) hcaps)
  cases request
  cases request'
  obtain rfl := utf8_injective hid
  obtain rfl := Subtype.ext hnonce
  obtain rfl := hset
  rfl

/-! ### Runs of the server -/

/-- A call to the server. -/
inductive Call (Tag : Type) where
  | offer (drawn : Drawn) (capabilities : Names) (now : ℤ)
  | complete (proof : PairingProof Tag) (now : ℤ)

/-- A proof that was accepted, with the offer it was accepted for. -/
structure Acceptance (Tag : Type) where
  offer : PairingOffer
  proof : PairingProof Tag
  now : ℤ
  client : PairedClient Tag

/-- What the server has done. -/
inductive PairingEvent (Tag : Type) where
  | created (offer : PairingOffer)
  | accepted (acceptance : Acceptance Tag)

def createdOffers {Tag : Type} (id : Uuid) (log : List (PairingEvent Tag)) : List PairingOffer :=
  log.filterMap fun
    | .created offer => if offer.id = id then some offer else none
    | .accepted _ => none

/-- The offers consumed under an id, in order. -/
def acceptedOffers {Tag : Type} (id : Uuid) (log : List (PairingEvent Tag)) : List PairingOffer :=
  log.filterMap fun
    | .created _ => none
    | .accepted acceptance =>
      if acceptance.proof.offerId = id then some acceptance.offer else none

/-- The offers under an id that were pending or are created are those consumed, followed by what
is pending then. -/
def Consumes {Tag : Type} (id : Uuid) (s : PairingServer) (log : List (PairingEvent Tag))
    (s' : PairingServer) : Prop :=
  s.pending[id]?.toList ++ createdOffers id log =
    acceptedOffers id log ++ s'.pending[id]?.toList

section

variable {Tag : Type} [DecidableEq Tag] [Hmac Tag]

/-- One call.  An id that is pending already creates no offer. -/
def serve : Call Tag → Emits PairingServer (PairingEvent Tag)
  | .offer drawn capabilities now => fun s =>
    let (offer, s') := s.offer drawn capabilities now
    (if drawn.id ∈ s.pending then [] else [.created offer], s')
  | .complete proof now => fun s =>
    match s.pending[proof.offerId]?, s.complete proof now with
    | some offer, .ok (client, s') => ([.accepted { offer, proof, now, client }], s')
    | _, _ => ([], s)

/-- What the server does, from the start. -/
def serveAll (calls : List (Call Tag)) : List (PairingEvent Tag) × PairingServer :=
  Emits.each serve calls {}

/-- What a call can do. -/
inductive Served (s : PairingServer) : List (PairingEvent Tag) × PairingServer → Prop
  | idle : Served s ([], s)
  | created (offer : PairingOffer) (hnew : s.pending[offer.id]? = none) :
      Served s ([.created offer], { s with pending := s.pending.insert offer.id offer })
  | accepted (a : Acceptance Tag) (hpending : s.pending[a.proof.offerId]? = some a.offer)
      (hverify : verify a.offer a.proof a.now = .ok a.client) :
      Served s ([.accepted a], { s with pending := s.pending.erase a.proof.offerId })

theorem served_serve (call : Call Tag) (s : PairingServer) : Served s (serve call s) := by
  cases call with
  | offer drawn capabilities now =>
    dsimp only [serve, offer]
    cases hid : s.pending[drawn.id]? with
    | some offer =>
      have hmem : drawn.id ∈ s.pending := mem_iff_isSome_getElem?.mpr (by simp [hid])
      rw [if_pos hmem]
      exact .idle
    | none =>
      have hmem : drawn.id ∉ s.pending := by
        rw [mem_iff_isSome_getElem?, hid]
        exact Bool.false_ne_true
      rw [if_neg hmem]
      exact .created _ hid
  | complete proof now =>
    dsimp only [serve, complete]
    cases hid : s.pending[proof.offerId]? with
    | none => exact .idle
    | some offer =>
      dsimp only
      cases hverify : verify offer proof now with
      | error e => exact .idle
      | ok client => exact .accepted { offer, proof, now, client } hid hverify

/-! ### Each offer is consumed once -/

omit [DecidableEq Tag] [Hmac Tag] in
theorem chains_consumes (id : Uuid) : Chains (@Consumes Tag id) where
  refl s := by simp [Consumes, createdOffers, acceptedOffers]
  trans {a b c log more} h h' := by
    unfold Consumes createdOffers acceptedOffers at h h' ⊢
    rw [filterMap_append, filterMap_append, ← append_assoc, h, append_assoc, h',
      append_assoc]

theorem keeps_serve (id : Uuid) (call : Call Tag) : Keeps (Consumes id) (serve call) := by
  intro s
  have hserved := served_serve call s
  unfold Consumes createdOffers acceptedOffers
  generalize serve call s = r at hserved ⊢
  cases hserved with
  | idle => simp
  | created offer hnew =>
    rw [getElem?_insert_eq]
    by_cases hid : offer.id = id
    · subst hid
      simp [hnew]
    · simp [hid, Ne.symm hid]
  | accepted a hpending _ =>
    rw [getElem?_erase_eq]
    by_cases hid : a.proof.offerId = id
    · subst hid
      simp [hpending]
    · simp [hid, Ne.symm hid]

theorem consumes_serveAll (id : Uuid) (calls : List (Call Tag)) :
    createdOffers id (serveAll calls).1 =
      acceptedOffers id (serveAll calls).1 ++ (serveAll calls).2.pending[id]?.toList := by
  have hrun := Keeps.each (chains_consumes id) (keeps_serve id) calls {}
  unfold Consumes at hrun
  rwa [show (({} : PairingServer).pending)[id]? = none from getElem?_empty,
    Option.toList_none, nil_append] at hrun

variable {offer : PairingOffer} {calls : List (Call Tag)} {now : ℤ}

omit [DecidableEq Tag] [Hmac Tag] in
theorem id_of_created {log : List (PairingEvent Tag)} {id : Uuid}
    (h : offer ∈ createdOffers id log) : offer.id = id := by
  obtain ⟨event, -, hevent⟩ := mem_filterMap.mp h
  cases event with
  | accepted _ => exact absurd hevent (by simp)
  | created offer' =>
    obtain ⟨hid, heq⟩ := Option.ite_none_right_eq_some.mp hevent
    exact Option.some.inj heq ▸ hid

theorem id_of_pending {id : Uuid} (h : (serveAll calls).2.pending[id]? = some offer) :
    offer.id = id := by
  have hcreated : offer ∈ createdOffers id (serveAll calls).1 := by
    rw [consumes_serveAll, h]
    exact mem_append_right _ (mem_singleton_self offer)
  exact id_of_created hcreated

/-! ### Accepted proofs -/

/-- What a proof asks for. -/
def PairingProof.request {Tag : Type} (proof : PairingProof Tag) : PairingRequest where
  clientId := proof.clientId
  clientNonce := proof.clientNonce
  capabilities := proof.requestedCapabilities

theorem find?_missing_eq_none {names offered : Names} :
    names.toList.find? (!offered.contains ·) = none ↔ ∀ name ∈ names, name ∈ offered := by
  rw [find?_eq_none]
  simp only [Std.ExtTreeSet.mem_toList, Bool.not_eq_true', Bool.not_eq_false,
    Std.ExtTreeSet.contains_iff_mem]

variable {proof : PairingProof Tag} {client : PairedClient Tag}

/-- What a proof has passed when it is accepted. -/
theorem verify_ok (h : verify offer proof now = .ok client) :
    now < offer.expiresAt ∧ client.capabilities = proof.requestedCapabilities ∧
      (∀ name ∈ proof.requestedCapabilities, name ∈ offer.offeredCapabilities) ∧
      proof.proof = Hmac.hmac (utf8 offer.code) (pairingTranscript proof.offerId proof.clientId
        offer.serverNonce proof.clientNonce proof.requestedCapabilities) := by
  unfold verify at h
  obtain ⟨hguard, h⟩ := refuse_bind_ok h
  cases hfind : proof.requestedCapabilities.toList.find?
      (!offer.offeredCapabilities.contains ·) with
  | some capability =>
    rw [hfind] at h
    exact (nomatch h)
  | none =>
    rw [hfind] at h
    obtain ⟨htag, h⟩ := refuse_bind_ok h
    obtain rfl := Except.ok.inj h
    rw [not_or, not_or, not_le] at hguard
    exact ⟨hguard.2.1, rfl, find?_missing_eq_none.mp hfind, (not_not.mp htag).symm⟩

/-- An honest proof passes. -/
theorem verify_createPairingProof {request : PairingRequest}
    (hclient : (Core.trim request.clientId).isEmpty = false) (hnow : now < offer.expiresAt)
    (hnames : ∀ name ∈ request.capabilities, name ∈ offer.offeredCapabilities) :
    ∃ client : PairedClient Tag, verify offer (createPairingProof offer
      request.clientId request.clientNonce request.capabilities) now = .ok client := by
  unfold verify createPairingProof
  rw [find?_missing_eq_none.mpr hnames]
  exact ⟨_, bind_ok_iff.mpr ⟨(), refuse_neg (by simp [hclient, hnow]),
    bind_ok_iff.mpr ⟨(), refuse_neg (not_not.mpr rfl), rfl⟩⟩⟩

/-- A proof that passes is accepted. -/
theorem complete_of_verify {s : PairingServer} (hpending : s.pending[proof.offerId]? = some offer)
    (hverify : verify offer proof now = .ok client) :
    s.complete proof now = .ok (client, { s with pending := s.pending.erase proof.offerId }) := by
  unfold complete
  rw [hpending]
  exact bind_ok_iff.mpr ⟨client, hverify, rfl⟩

/-- A run accepts what passes. -/
theorem verify_of_accepted {a : Acceptance Tag} (h : .accepted a ∈ (serveAll calls).1) :
    verify a.offer a.proof a.now = .ok a.client := by
  unfold serveAll at h
  refine Emits.forall_each (p := fun event : PairingEvent Tag => ∀ a, event = .accepted a →
    verify a.offer a.proof a.now = .ok a.client) (fun call s event hevent => ?_)
    calls _ _ h a rfl
  have hserved := served_serve call s
  generalize serve call s = r at hserved hevent
  cases hserved with
  | idle => exact (nomatch hevent)
  | created offer _ =>
    obtain rfl := mem_singleton.mp hevent
    exact fun _ heq => (nomatch heq)
  | accepted a' _ hverify =>
    obtain rfl := mem_singleton.mp hevent
    intro a heq
    obtain rfl := PairingEvent.accepted.inj heq
    exact hverify

theorem id_of_accepted {a : Acceptance Tag} (h : .accepted a ∈ (serveAll calls).1) :
    a.offer.id = a.proof.offerId := by
  have hcreated : a.offer ∈ createdOffers a.proof.offerId (serveAll calls).1 := by
    rw [consumes_serveAll]
    exact mem_append_left _ (mem_filterMap.mpr ⟨_, h, if_pos rfl⟩)
  exact id_of_created hcreated

/-! ### Pairing -/

/-- The client id and the capabilities of a request are lines. -/
def PairingRequest.OneLine (request : PairingRequest) : Prop :=
  Plugins.OneLine request.clientId ∧ ∀ name ∈ request.capabilities, Plugins.OneLine name

/-- What holds of a server that has done `log`. -/
structure PairingSound (log : List (PairingEvent Tag)) (s : PairingServer) : Prop where
  /-- Each offer is consumed at most once: those consumed under an id are the first ones created
  under it, in order. -/
  once : ∀ id, acceptedOffers id log <+: createdOffers id log
  /-- No proof is accepted at or after the expiry of its offer. -/
  inTime : ∀ a, .accepted a ∈ log → a.now < a.offer.expiresAt
  /-- The client has the capabilities it asked for, all of them offered. -/
  offered : ∀ a, .accepted a ∈ log → a.client.capabilities = a.proof.requestedCapabilities ∧
    ∀ name ∈ a.client.capabilities, name ∈ a.offer.offeredCapabilities
  /-- The proof was made for what it asks for, and for nothing else. -/
  exact : ∀ a, .accepted a ∈ log → a.proof.request.OneLine → ∀ request : PairingRequest,
    request.OneLine → ((createPairingProof a.offer request.clientId request.clientNonce
      request.capabilities : PairingProof Tag).proof = a.proof.proof ↔ request = a.proof.request)
  /-- An honest proof for an offer that is not consumed is accepted. -/
  honest : ∀ (id : Uuid) (offer : PairingOffer), s.pending[id]? = some offer →
    ∀ request : PairingRequest, ∀ now,
    (Core.trim request.clientId).isEmpty = false → now < offer.expiresAt →
    (∀ name ∈ request.capabilities, name ∈ offer.offeredCapabilities) →
    ∃ (client : PairedClient Tag) (s' : PairingServer), s.complete (createPairingProof offer
      request.clientId request.clientNonce request.capabilities) now = .ok (client, s')

/-- **Pairing is single-use, and unambiguous without line feeds.** -/
theorem pairing_sound (hinjective : ∀ key, Function.Injective (Hmac.hmac key : List UInt8 → Tag))
    (calls : List (Call Tag)) : PairingSound (serveAll calls).1 (serveAll calls).2 where
  once id := by
    rw [consumes_serveAll]
    exact prefix_append _ _
  inTime a ha := (verify_ok (verify_of_accepted ha)).1
  offered a ha := by
    obtain ⟨-, hclient, hnames, -⟩ := verify_ok (verify_of_accepted ha)
    exact ⟨hclient, hclient ▸ hnames⟩
  exact a ha hline request hrequest := by
    obtain ⟨-, -, -, htag⟩ := verify_ok (verify_of_accepted ha)
    have hid := id_of_accepted ha
    rw [← hid] at htag
    rw [htag]
    constructor
    · intro heq
      exact transcript_injective hrequest.1 hline.1 hrequest.2 hline.2 (hinjective _ heq)
    · rintro rfl
      rfl
  honest id offer hpending request now hclient hnow hnames := by
    obtain ⟨client, hverify⟩ : ∃ client : PairedClient Tag, _ :=
      verify_createPairingProof hclient hnow hnames
    obtain rfl := id_of_pending hpending
    exact ⟨client, _, complete_of_verify hpending hverify⟩

end

/-! ### Line feeds in a request -/

/-- A tag that shows what it was made of. -/
abbrev OpenTag := List UInt8 × List UInt8

@[reducible] def openHmac : Hmac OpenTag := ⟨fun key message => (key, message)⟩

section

attribute [local instance] openHmac

def zeroNonce : Nonce := ⟨List.replicate 32 0, rfl⟩

/-- An offer of the capability `a\nb` besides `a` and `b`. -/
def letterOffer : PairingOffer where
  id := 1
  serverNonce := zeroNonce
  expiresAt := 5 * 60 * 10 ^ 9
  offeredCapabilities := Std.ExtTreeSet.ofList ["a", "b", "a\nb"]
  code := "code"

/-- The call that creates it. -/
def offerLetters : Call OpenTag :=
  .offer ⟨1, zeroNonce, "code"⟩ (Std.ExtTreeSet.ofList ["a", "b", "a\nb"]) 0

/-- An offer, and an honest proof of a client for one of its capabilities. -/
def pairOnce : List (Call OpenTag) :=
  [offerLetters, .complete (createPairingProof letterOffer "phone" zeroNonce
    (Std.ExtTreeSet.ofList ["a"])) 1]

/-- The offer and the client that was paired. -/
theorem pairOnce_sound :
    (serveAll pairOnce).1.length = 2 ∧ PairingSound (serveAll pairOnce).1 (serveAll pairOnce).2 :=
  ⟨by decide +kernel, pairing_sound (fun _ _ _ h => (Prod.mk.inj h).2) pairOnce⟩

/-- 31 bytes of a server nonce, as two version 4 UUIDs can have them, that are a text. -/
def nonceText : String := "aaaaaaA\u0080aaaaaaaaaaaaaA\u0080aaaaaa"

/-- 31 bytes of a capability. -/
def longName : String := "ccccccccccccccccccccccccccccccc"

/-- A nonce that ends in a line feed. -/
def feedNonce : Nonce := ⟨utf8 (nonceText ++ "\n"), by decide +kernel⟩

/-- **Line feeds make a proof ambiguous, and a blank client is turned away.**  A proof for `a\nb`
is accepted as one for `a` and `b`; a client id that ends in the first bytes of the server nonce
takes the place of a client nonce; a client id of spaces is refused with an honest proof. -/
theorem transcripts_collide :
    (serveAll [offerLetters, .complete { createPairingProof letterOffer "phone" zeroNonce
        (Std.ExtTreeSet.ofList ["a\nb"]) with
          requestedCapabilities := Std.ExtTreeSet.ofList ["a", "b"] } 1]).1.length = 2 ∧
      PairingRequest.transcript ⟨"a", feedNonce, Std.ExtTreeSet.ofList [longName]⟩
          { letterOffer with serverNonce := feedNonce } =
        PairingRequest.transcript
          ⟨"a\n" ++ nonceText, ⟨utf8 ("\n" ++ longName), by decide +kernel⟩, ∅⟩
          { letterOffer with serverNonce := feedNonce } ∧
      (serveAll [offerLetters, .complete (createPairingProof letterOffer "  " zeroNonce
        (Std.ExtTreeSet.ofList ["a"])) 1]).1.length = 1 :=
  ⟨by decide +kernel, by decide +kernel, by decide +kernel⟩

end

end PersonalAgent.Plugins
