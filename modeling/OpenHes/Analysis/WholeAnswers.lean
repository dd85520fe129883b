import OpenHes.Analysis.ConfiguredServers
import OpenHes.Model.Https

/-!
# Zones come from whole answers

However the network cuts an entity into pieces, the HTTPS client has it whole or not at all: its
sink holds what has come so far, and refuses the first piece that it has no room for. So a zone that
a provider names, and the mark that a provider was reached, stand on an answer that came whole from
a verified server with a status of success.
-/

set_option autoImplicit false

namespace OpenHes.Analysis

open OpenHes.Library OpenHes.Model

/-! ## The sink -/

/-- The entity of a transfer. -/
def entity (transfer : Transfer) : List UInt8 := transfer.chunks.flatten

/-- The transfer brings a whole entity, with a status of success. -/
structure Whole (cap : ℕ) (transfer : Transfer) : Prop where
  fits : (entity transfer).length < cap
  completes : transfer.completes = true
  status : 200 ≤ transfer.status ∧ transfer.status ≤ 299

/-- The sink holds the text, in an array of its capacity. -/
structure SinkHolds (sink : BodySink) (text : List UInt8) : Prop where
  size : sink.body.length = sink.cap
  small : sink.cap < 2 ^ 64
  len : sink.len = text.length
  holds : HoldsCString text sink.body

/-- INTERNAL: the text of a sink fits it, with room for its end. -/
theorem SinkHolds.room (sink : BodySink) (text : List UInt8) (h : SinkHolds sink text) :
    text.length < sink.cap ∧ toSize (sink.cap - 1 - sink.len) = sink.cap - 1 - text.length := by
  obtain ⟨rest, hrest⟩ := h.holds
  have hlt : text.length < sink.cap := by
    rw [← h.size, ← hrest]
    simp only [List.length_append, List.length_singleton]
    omega
  refine ⟨hlt, ?_⟩
  have hsmall := h.small
  have hcast : ((sink.cap : ℤ) - 1 - sink.len) = ((sink.cap - 1 - text.length : ℕ) : ℤ) := by
    rw [h.len]
    omega
  rw [hcast]
  exact toSize_of_lt _ (by omega)

/-- INTERNAL: **a piece** is taken whole, or not at all. -/
theorem sinkWrite_piece (sink : BodySink) (text data : List UInt8) (h : SinkHolds sink text) :
    (text.length + data.length < sink.cap ∧
      ∃ sink', sinkWrite sink data = some (sink', data.length) ∧ sink'.cap = sink.cap ∧
        sink'.overflow = sink.overflow ∧ SinkHolds sink' (text ++ data)) ∨
    (sink.cap ≤ text.length + data.length ∧
      sinkWrite sink data = some ({ sink with overflow := true }, 0)) := by
  obtain ⟨hlt, hroom⟩ := h.room
  unfold sinkWrite
  rw [hroom]
  by_cases hfits : text.length + data.length < sink.cap
  · refine Or.inl ⟨hfits, ?_⟩
    obtain ⟨body, hbody, hsize, hholds⟩ := writeBytes_more text data sink.body h.holds
      (h.size ▸ hfits)
    rw [if_neg (by omega), h.len, hbody, Option.map_some]
    refine ⟨_, rfl, rfl, rfl, hsize.trans h.size, h.small, ?_, hholds⟩
    rw [List.length_append]
  · exact Or.inr ⟨by omega, if_pos (by omega)⟩

/-- INTERNAL: **the pieces**: the sink has all of them, or has overflowed. -/
theorem deliver_pieces (chunks : List (List UInt8)) (sink : BodySink) (text : List UInt8)
    (h : SinkHolds sink text) (hclear : sink.overflow = false) :
    (text.length + chunks.flatten.length < sink.cap ∧
      ∃ sink', deliver sink chunks = some (sink', true) ∧ sink'.cap = sink.cap ∧
        sink'.overflow = false ∧ SinkHolds sink' (text ++ chunks.flatten)) ∨
    (sink.cap ≤ text.length + chunks.flatten.length ∧
      ∃ sink', deliver sink chunks = some (sink', false) ∧ sink'.overflow = true ∧
        sink'.body.length = sink.cap) := by
  induction chunks generalizing sink text with
  | nil =>
    refine Or.inl ⟨h.room.1, sink, rfl, rfl, hclear, ?_⟩
    rw [List.flatten_nil, List.append_nil]
    exact h
  | cons data rest ih =>
    rw [List.flatten_cons, List.length_append, ← Nat.add_assoc, ← List.append_assoc]
    rw [deliver]
    rcases sinkWrite_piece sink text data h with
      ⟨hfits, sink', hwrite, hcap, hoverflow, hholds⟩ | ⟨hfull, hwrite⟩
    · rw [hwrite, Option.bind_some, if_neg (lt_irrefl _)]
      have hrest := ih sink' (text ++ data) hholds (hoverflow.trans hclear)
      rwa [hcap, List.length_append] at hrest
    · rw [hwrite, Option.bind_some]
      have hsome : 0 < data.length := by
        have := h.room.1
        omega
      rw [if_pos hsome]
      exact Or.inr ⟨by omega, _, rfl, rfl, h.size⟩

/-! ## The client -/

/-- What a request leaves, which was to bring the text: all of it, or an empty body. -/
def LeavesBody (whole : Prop) (text : List UInt8) (reply : HttpsReply) : Prop :=
  (whole ∧ reply.rv = 0 ∧ reply.bodyLen = text.length ∧ HoldsCString text reply.body) ∨
    (¬ whole ∧ reply.rv = -1 ∧ reply.bodyLen = 0 ∧ HoldsCString [] reply.body)

/-- INTERNAL: **a failure** leaves an empty body, whatever came before. -/
theorem failedReply_leaves (body : List UInt8) (h : 0 < body.length) (whole : Prop)
    (hnot : ¬ whole) (text : List UInt8) :
    ∃ reply, failedReply body = some reply ∧ reply.body.length = body.length ∧
      LeavesBody whole text reply := by
  obtain ⟨body', hbody, hsize, hholds⟩ := writeBytes_terminator body h
  refine ⟨⟨-1, body', 0⟩, ?_, hsize, Or.inr ⟨hnot, rfl, rfl, hholds⟩⟩
  unfold failedReply
  rw [hbody, Option.map_some]

/-- INTERNAL: **a request** stays in the array, and brings the whole entity or nothing. -/
theorem hesHttpsGet_whole (body : List UInt8) (cap : ℕ) (hsize : body.length = cap) (hcap : 2 ≤ cap)
    (hsmall : cap < 2 ^ 64) (handle : Bool) (transfer : Transfer) :
    ∃ reply, hesHttpsGet body cap handle transfer = some reply ∧ reply.body.length = cap ∧
      LeavesBody (handle = true ∧ Whole cap transfer) (entity transfer) reply := by
  obtain ⟨start, hstart, hlength, hempty⟩ := writeBytes_terminator body (by omega)
  rw [hsize] at hlength
  unfold hesHttpsGet
  rw [if_neg (by omega), hstart, Option.bind_some]
  cases handle with
  | false => exact ⟨_, rfl, hlength, Or.inr ⟨by simp, rfl, rfl, hempty⟩⟩
  | true =>
    rw [Bool.not_true, if_neg (by simp)]
    have hinit : SinkHolds { body := start, cap := cap } [] := ⟨hlength, hsmall, rfl, hempty⟩
    have hfail : ∀ sink : BodySink, sink.body.length = cap → ¬ Whole cap transfer →
        ∃ reply, failedReply sink.body = some reply ∧ reply.body.length = cap ∧
          LeavesBody (true = true ∧ Whole cap transfer) (entity transfer) reply := by
      intro sink hsink hnot
      rw [← hsink]
      exact failedReply_leaves sink.body (by omega) _ (fun h => hnot (hsink ▸ h.2)) _
    rcases deliver_pieces transfer.chunks _ [] hinit rfl with
      ⟨hfits, sink, hdeliver, hcap', hoverflow, hholds⟩ | ⟨hfull, sink, hdeliver, hoverflow, hbody⟩
    · rw [List.nil_append] at hholds
      rw [List.length_nil, Nat.zero_add] at hfits
      have hbody : sink.body.length = cap := hholds.size.trans hcap'
      rw [hdeliver, Option.bind_some]
      dsimp only
      rw [if_neg (by rw [hoverflow]; simp), Bool.true_and]
      by_cases hcompletes : transfer.completes = true
      · rw [hcompletes, Bool.not_true, if_neg (by simp)]
        split
        next hstatus =>
          refine hfail sink hbody fun hwhole => ?_
          obtain ⟨hlow, hhigh⟩ := hwhole.status
          simp only [Bool.or_eq_true, decide_eq_true_eq] at hstatus
          omega
        next hstatus =>
          simp only [Bool.or_eq_true, decide_eq_true_eq, not_or, not_lt] at hstatus
          exact ⟨_, rfl, hbody, Or.inl ⟨⟨rfl, hfits, hcompletes, hstatus⟩, rfl, hholds.len,
            hholds.holds⟩⟩
      · rw [if_pos (by simpa using hcompletes)]
        exact hfail sink hbody fun hwhole => hcompletes hwhole.completes
    · rw [hdeliver, Option.bind_some]
      dsimp only
      rw [if_pos hoverflow]
      refine hfail sink hbody fun hwhole => ?_
      have := hwhole.fits
      unfold entity at this
      dsimp only at hfull
      rw [List.length_nil, Nat.zero_add] at hfull
      omega

/-! ## Zones -/

/-- The exchange brings, whole, a document that names the zone. -/
def NamesWhole (exchange : HttpsExchange) (name : CStr) : Prop :=
  exchange.handle = true ∧ Whole hesHttpsBodyMax exchange.transfer ∧
    ∃ root, Json.loads (cString (entity exchange.transfer)) = some root ∧
      geoTzParseJson root geoTzNameMax = some name

/-- INTERNAL: **the document of an exchange** is that of its whole entity. -/
theorem answeredDocument_whole (exchange : HttpsExchange) :
    (exchange.handle = true ∧ Whole hesHttpsBodyMax exchange.transfer ∧
        answeredDocument exchange = Json.loads (cString (entity exchange.transfer))) ∨
      (¬ (exchange.handle = true ∧ Whole hesHttpsBodyMax exchange.transfer) ∧
        answeredDocument exchange = none) := by
  obtain ⟨reply, hreply, -, ⟨⟨hhandle, hwhole⟩, hrv, -, hholds⟩ | ⟨hnot, hrv, -⟩⟩ :=
    hesHttpsGet_whole exchange.stack hesHttpsBodyMax exchange.size_eq (by decide) (by decide)
      exchange.handle exchange.transfer
  · refine Or.inl ⟨hhandle, hwhole, ?_⟩
    unfold answeredDocument
    rw [hreply, Option.bind_some, if_neg (not_not.mpr hrv), cString_of_holds _ _ hholds]
  · refine Or.inr ⟨hnot, ?_⟩
    unfold answeredDocument
    rw [hreply, Option.bind_some, if_pos (by rw [hrv]; decide)]

/-- The two exchanges bring one entity, in whatever pieces. -/
structure SameEntity (ex ex' : HttpsExchange) : Prop where
  handle : ex'.handle = ex.handle
  entity : entity ex'.transfer = entity ex.transfer
  completes : ex'.transfer.completes = ex.transfer.completes
  status : ex'.transfer.status = ex.transfer.status

/-- INTERNAL: the pieces do not matter. -/
theorem answeredDocument_same (ex ex' : HttpsExchange) (h : SameEntity ex ex') :
    answeredDocument ex' = answeredDocument ex := by
  have hwhole : Whole hesHttpsBodyMax ex'.transfer ↔ Whole hesHttpsBodyMax ex.transfer := by
    constructor
    · rintro ⟨hfits, hcompletes, hstatus⟩
      exact ⟨h.entity ▸ hfits, h.completes ▸ hcompletes, h.status ▸ hstatus⟩
    · rintro ⟨hfits, hcompletes, hstatus⟩
      exact ⟨h.entity ▸ hfits, h.completes ▸ hcompletes, h.status ▸ hstatus⟩
  rcases answeredDocument_whole ex with ⟨hhandle, hw, hdoc⟩ | ⟨hnot, hdoc⟩
  · rcases answeredDocument_whole ex' with ⟨-, -, hdoc'⟩ | ⟨hnot', -⟩
    · rw [hdoc, hdoc', h.entity]
    · exact absurd ⟨h.handle ▸ hhandle, hwhole.mpr hw⟩ hnot'
  · rcases answeredDocument_whole ex' with ⟨hhandle', hw', -⟩ | ⟨-, hdoc'⟩
    · exact absurd ⟨h.handle ▸ hhandle', hwhole.mp hw'⟩ hnot
    · rw [hdoc, hdoc']

/-- INTERNAL: **the loop over the providers** ends with a name that one of the list answers. -/
theorem detectZone_some (answer : CStr → Option Json) (fuel : ℕ) (cursor : CStr)
    (fields : List CStr) (hfields : csvFields 192 fuel cursor = some fields) (name : CStr)
    (h : detectZone answer fuel cursor = some name) :
    ∃ url ∈ fields, geoTzDetect (answer url) geoTzNameMax = some name := by
  induction fuel generalizing cursor fields with
  | zero => cases h
  | succ fuel ih =>
    rw [detectZone] at h
    rw [csvFields] at hfields
    cases hread : nextCsv 192 cursor with
    | none =>
      rw [hread] at h
      cases h
    | some read =>
      obtain ⟨url, rest⟩ := read
      rw [hread] at h hfields
      dsimp only at h hfields
      obtain ⟨more, hmore, rfl⟩ := Option.map_eq_some_iff.mp hfields
      cases hdetect : geoTzDetect (answer url) geoTzNameMax with
      | some found =>
        rw [hdetect] at h
        exact ⟨url, List.mem_cons_self, hdetect.trans h⟩
      | none =>
        rw [hdetect] at h
        obtain ⟨url', hurl', hname⟩ := ih rest more hmore h
        exact ⟨url', List.mem_cons_of_mem _ hurl', hname⟩

/-- The endpoints of a list of providers. -/
def endpointsOf (urls : CStr) : List CStr := (csvFields 192 (urls.length + 1) urls).getD []

/-- A provider of the list has named the zone, in a refresh of the run, and its answer was whole. -/
def ProviderNamed (steps : List SyncStep) (urls name : CStr) : Prop :=
  ∃ net url, .refreshZone (documents net) ∈ steps ∧ url ∈ endpointsOf urls ∧
    NamesWhole (net (detectEndpoint url)) name

/-- INTERNAL: a name that a refresh has from the network. -/
theorem providerNamed_of_detected (steps : List SyncStep) (urls name : CStr)
    (net : CStr → HttpsExchange) (hstep : .refreshZone (documents net) ∈ steps)
    (h : detectZone (documents net) (urls.length + 1) urls = some name) :
    ProviderNamed steps urls name := by
  have hfields := csvFields_eq 192 (urls.length + 1) urls (Nat.lt_succ_self _)
  obtain ⟨url, hurl, hdetect⟩ := detectZone_some _ _ _ _ hfields name h
  refine ⟨net, url, hstep, ?_, ?_⟩
  · unfold endpointsOf
    rw [hfields]
    exact hurl
  · obtain ⟨root, hdoc, hname⟩ := Option.bind_eq_some_iff.mp hdetect
    unfold documents at hdoc
    rcases answeredDocument_whole (net (detectEndpoint url)) with
      ⟨hhandle, hwhole, hloads⟩ | ⟨-, hnone⟩
    · exact ⟨hhandle, hwhole, root, hloads.symm.trans hdoc, hname⟩
    · rw [hnone] at hdoc
      cases hdoc

/-- What a name in hand stands on. -/
def PhaseStandsOn (steps : List SyncStep) (urls : CStr) : ZonePhase → Prop
  | .answered name => ProviderNamed steps urls name
  | .named source name => source = .provider → ProviderNamed steps urls name
  | .resolved call => call.source = .provider → ProviderNamed steps urls call.name
  | .idle | .unnamed | .unknown => True

/-- What holds in a run: names and the mark of a provider stand on whole answers. -/
structure StandsOnWhole (steps : List SyncStep) (urls : CStr) (ts : TimeSync) : Prop where
  providers : ts.tzUrls = urls
  phase : PhaseStandsOn steps urls ts.phase
  adopted : ∀ call ∈ ts.adopted, call.source = .provider → ProviderNamed steps urls call.name
  reachable : ts.snap.reachable ≠ 0 →
    (∃ r now, .refreshTime r now ∈ steps) ∨ ∃ name, ProviderNamed steps urls name

/-- INTERNAL: **a step** of the thread. -/
theorem syncStep_standsOnWhole (steps : List SyncStep) (urls : CStr)
    (hnet : ∀ answer, .refreshZone answer ∈ steps → ∃ net, answer = documents net) (ts : TimeSync)
    (h : StandsOnWhole steps urls ts) (step : SyncStep) (hstep : step ∈ steps) :
    StandsOnWhole steps urls (syncStep ts step) := by
  cases step with
  | refreshZone answer =>
    rw [syncStep]
    split
    · refine ⟨h.providers, ?_, h.adopted, h.reachable⟩
      dsimp only
      unfold beginRefresh
      split
      · exact fun hsource => by cases hsource
      · split
        · split
          next name hname =>
            obtain ⟨net, rfl⟩ := hnet answer hstep
            rw [h.providers] at hname
            exact providerNamed_of_detected steps urls name net hstep hname
          · trivial
        · trivial
    · exact h
  | markReachable =>
    rw [syncStep]
    split
    next name hphase =>
      have hnamed : ProviderNamed steps urls name := by
        have := h.phase
        rwa [hphase] at this
      exact ⟨h.providers, fun _ => hnamed, h.adopted, fun _ => Or.inr ⟨name, hnamed⟩⟩
    · exact h
  | checkKnown =>
    rw [syncStep]
    split
    · refine ⟨h.providers, ?_, h.adopted, h.reachable⟩
      dsimp only
      split <;> trivial
    · exact h
  | askHost tz localtime =>
    rw [syncStep]
    split
    · split
      · exact ⟨h.providers, (fun hsource => by cases hsource), h.adopted, h.reachable⟩
      · exact ⟨h.providers, trivial, h.adopted, h.reachable⟩
    · exact h
  | lookUp probe =>
    rw [syncStep]
    split
    next source name hphase =>
      have hnamed : source = .provider → ProviderNamed steps urls name := by
        have := h.phase
        rwa [hphase] at this
      split
      · exact ⟨h.providers, hnamed, h.adopted, h.reachable⟩
      · exact ⟨h.providers, trivial, h.adopted, h.reachable⟩
    · exact h
  | store =>
    rw [syncStep]
    split
    next call hphase =>
      have hnamed : call.source = .provider → ProviderNamed steps urls call.name := by
        have := h.phase
        rwa [hphase] at this
      refine ⟨h.providers, trivial, fun c hc => ?_, h.reachable⟩
      rcases List.mem_append.mp hc with hc | hc
      · exact h.adopted c hc
      · rw [List.mem_singleton.mp hc]
        exact hnamed
    · exact h
  | refreshTime r now =>
    rw [syncStep]
    split
    · exact ⟨h.providers, h.phase, h.adopted, fun _ => Or.inl ⟨r, now, hstep⟩⟩
    · exact h

/-- INTERNAL: **a run** of the thread. -/
theorem syncRun_standsOnWhole (steps : List SyncStep) (urls : CStr)
    (hnet : ∀ answer, .refreshZone answer ∈ steps → ∃ net, answer = documents net)
    (later : List SyncStep) (hlater : ∀ step ∈ later, step ∈ steps) (ts : TimeSync)
    (h : StandsOnWhole steps urls ts) : StandsOnWhole steps urls (syncRun ts later) := by
  induction later generalizing ts with
  | nil => exact h
  | cons step rest ih =>
    exact ih (fun s hs => hlater s (List.mem_cons_of_mem _ hs)) _
      (syncStep_standsOnWhole steps urls hnet ts h step (hlater step List.mem_cons_self))

/-- **Zones come from whole answers**, in every run of the sync thread over the HTTPS client,
whatever the network does: a zone that was adopted from a provider was named by one of the
configured endpoints, in an answer that came whole into the array, with a verified certificate and a
status of success; the mark of a provider stands on such an answer, or on one of a time server; in
which pieces an answer comes makes no difference; and the client never writes outside the array that
it was handed.
SRCLINE: common/hes_https.c:78-92, 111-212; services/time/geo_tz.c:202-217 -/
theorem zones_from_whole_answers (cfg : TimeSyncConfig) (steps : List SyncStep)
    (hnet : ∀ answer, .refreshZone answer ∈ steps → ∃ net, answer = documents net) :
    (∀ call ∈ (syncRun (timeSyncStart cfg) steps).adopted, call.source = .provider →
        ProviderNamed steps (timeSyncStart cfg).tzUrls call.name) ∧
      ((syncRun (timeSyncStart cfg) steps).snap.reachable ≠ 0 →
        (∃ r now, .refreshTime r now ∈ steps) ∨
          ∃ name, ProviderNamed steps (timeSyncStart cfg).tzUrls name) ∧
      (∀ net net' : CStr → HttpsExchange, (∀ url, SameEntity (net url) (net' url)) →
        documents net' = documents net) ∧
      ∀ (body : List UInt8) (cap : ℕ) (handle : Bool) (transfer : Transfer), body.length = cap →
        2 ≤ cap → cap < 2 ^ 64 → ∃ reply, hesHttpsGet body cap handle transfer = some reply ∧
          reply.body.length = cap := by
  have hstart : StandsOnWhole steps (timeSyncStart cfg).tzUrls (timeSyncStart cfg) :=
    ⟨rfl, trivial, fun call hcall => absurd hcall List.not_mem_nil, fun h => absurd rfl h⟩
  have hrun := syncRun_standsOnWhole steps _ hnet steps (fun _ hs => hs) _ hstart
  refine ⟨hrun.adopted, hrun.reachable, fun net net' hsame =>
    funext fun url => answeredDocument_same _ _ (hsame (detectEndpoint url)), ?_⟩
  intro body cap handle transfer hsize hcap hsmall
  obtain ⟨reply, hreply, hlength, -⟩ := hesHttpsGet_whole body cap hsize hcap hsmall handle transfer
  exact ⟨reply, hreply, hlength⟩

/-- An answer that comes in two pieces. -/
def taipeiAnswer : HttpsExchange where
  stack := List.replicate hesHttpsBodyMax 7
  handle := true
  transfer :=
    { chunks := [lit "\x7b\"timezone\":\"Asia/", lit "Taipei\"\x7d"]
      completes := true
      status := 200 }
  size_eq := List.length_replicate

/-- The zone is asked for, looked up and stored. -/
def taipeiSteps : List SyncStep :=
  [.refreshZone (documents fun _ => taipeiAnswer), .markReachable,
    .lookUp ⟨true, some ⟨28800, 0⟩, some ⟨28800, 0⟩⟩, .store]

/-- A zone that the answer of a provider names. -/
theorem zones_from_whole_answers_taipei :
    ProviderNamed taipeiSteps (timeSyncStart { tzEnabled := true }).tzUrls (lit "Asia/Taipei") := by
  have hadopted : (syncRun (timeSyncStart { tzEnabled := true }) taipeiSteps).adopted =
      [⟨.provider, lit "Asia/Taipei", 480, 0⟩] := by decide +kernel
  have hnet : ∀ answer, .refreshZone answer ∈ taipeiSteps → ∃ net, answer = documents net := by
    intro answer h
    simp only [taipeiSteps, List.mem_cons, List.not_mem_nil, or_false, reduceCtorEq,
      SyncStep.refreshZone.injEq] at h
    exact ⟨_, h⟩
  exact (zones_from_whole_answers { tzEnabled := true } taipeiSteps hnet).1
    ⟨.provider, lit "Asia/Taipei", 480, 0⟩ (by rw [hadopted]; exact List.mem_cons_self) rfl

end OpenHes.Analysis
