import OpenHes.Analysis.Brightness
import OpenHes.Analysis.CommandPath
import OpenHes.Analysis.SliceText
import OpenHes.Library.Trace

/-!
# What a lamp was told is what is read of it

A request, as the lamp reads it out of the datagram, and what a lamp that does what it is told has
to answer. The calls of a PUT stand directly behind it; so up to the next command for that lamp each
value that the module publishes of it is the value that was commanded.
-/

set_option autoImplicit false

namespace OpenHes.Analysis

open OpenHes.Library OpenHes.Library.Json OpenHes.Model

/-! ## The requests on the wire -/

/-- A member with a number. -/
def numberMember (key : CStr) (n : ℤ) : Member := ⟨key, [.integer n], .integer n⟩

/-- The parameters of a request. -/
def WizRequest.params : WizRequest → List Member
  | .getPilot => []
  | .setState on => [⟨lit "state", [.bool on], .bool on⟩]
  | .setRgb r g b =>
    [numberMember (lit "r") (clamp255 r), numberMember (lit "g") (clamp255 g),
      numberMember (lit "b") (clamp255 b)]
  | .setBrightness level => [numberMember (lit "dimming") (dimmingLevel level)]

/-- The members of a request. -/
def requestMembers (req : WizRequest) : List Member :=
  [⟨lit "method", [.string req.method], .string req.method⟩,
    ⟨lit "params", .openBrace :: (membersTokens (WizRequest.params req) ++ [.closeBrace]),
      ofMembers (WizRequest.params req)⟩]

/-- INTERNAL: a clamped channel fits. -/
theorem clamp255_fits (v : ℤ) : FitsInt64 (clamp255 v) := by
  unfold clamp255 FitsInt64
  split
  · omega
  · split <;> omega

/-- INTERNAL: a level that is commanded is between 10 and 100. -/
theorem dimmingLevel_bounds (level : ℤ) : 10 ≤ dimmingLevel level ∧ dimmingLevel level ≤ 100 := by
  unfold dimmingLevel
  dsimp only
  split <;> split <;> omega

/-- INTERNAL: it fits. -/
theorem dimmingLevel_fits (level : ℤ) : FitsInt64 (dimmingLevel level) := by
  have hbounds := dimmingLevel_bounds level
  unfold FitsInt64
  omega

/-- The parts of the request that sets the level. -/
def brightnessParts (level : ℤ) : List Part :=
  [.fixed (lit "\x7b\"method\":\"setPilot\",\"params\":\x7b\"dimming\":")
      [.openBrace, .string (lit "method"), .colon, .string (lit "setPilot"), .comma,
        .string (lit "params"), .colon, .openBrace, .string (lit "dimming"), .colon],
    .number (dimmingLevel level) (lit "\x7d\x7d") [.closeBrace, .closeBrace]]

/-- The parts of the request that sets the colour. -/
def rgbParts (r g b : ℤ) : List Part :=
  [.fixed (lit "\x7b\"method\":\"setPilot\",\"params\":\x7b\"r\":")
      [.openBrace, .string (lit "method"), .colon, .string (lit "setPilot"), .comma,
        .string (lit "params"), .colon, .openBrace, .string (lit "r"), .colon],
    .number (clamp255 r) (lit ",\"g\":") [.comma, .string (lit "g"), .colon],
    .number (clamp255 g) (lit ",\"b\":") [.comma, .string (lit "b"), .colon],
    .number (clamp255 b) (lit "\x7d\x7d") [.closeBrace, .closeBrace]]

/-- INTERNAL: a request with numbers is whole in its buffer. -/
theorem setBrightnessRequest_eq (level : ℤ) :
    setBrightnessRequest level = render (brightnessParts level) := by
  have hlen := fmtD_length _ (dimmingLevel_fits level)
  unfold setBrightnessRequest render brightnessParts
  rw [boundedCopy_of_short]
  · simp only [List.flatMap_cons, List.flatMap_nil, Part.text, List.append_nil, List.append_assoc]
  · simp only [List.length_append]
    have hhead : (lit "\x7b\"method\":\"setPilot\",\"params\":\x7b\"dimming\":").length ≤ 50 := by
      decide
    have htail : (lit "\x7d\x7d").length = 2 := by decide
    unfold maxPacketBufSize
    omega

/-- INTERNAL: the request for a colour is its template. -/
theorem setRgbRequest_eq (r g b : ℤ) : setRgbRequest r g b = render (rgbParts r g b) := by
  have hr := fmtD_length _ (clamp255_fits r)
  have hg := fmtD_length _ (clamp255_fits g)
  have hb := fmtD_length _ (clamp255_fits b)
  unfold setRgbRequest render rgbParts
  rw [boundedCopy_of_short]
  · simp only [List.flatMap_cons, List.flatMap_nil, Part.text, List.append_nil, List.append_assoc]
  · simp only [List.length_append]
    have hhead : (lit "\x7b\"method\":\"setPilot\",\"params\":\x7b\"r\":").length ≤ 50 := by
      decide
    have hsep : (lit ",\"g\":").length = 5 ∧ (lit ",\"b\":").length = 5 := by decide
    have htail : (lit "\x7d\x7d").length = 2 := by decide
    unfold maxPacketBufSize
    omega

/-- INTERNAL: the parameters of a request are read as its values. -/
theorem reads_params (req : WizRequest) (depth : ℕ) :
    ∀ m ∈ WizRequest.params req, Reads (depth + 1) m.ts m.value := by
  intro m hm
  cases req with
  | getPilot => cases hm
  | setState on =>
    rw [List.mem_singleton.mp hm]
    exact fun _ => rfl
  | setRgb r g b =>
    simp only [WizRequest.params, List.mem_cons, List.not_mem_nil, or_false] at hm
    rcases hm with rfl | rfl | rfl <;> exact fun _ => rfl
  | setBrightness level =>
    rw [List.mem_singleton.mp hm]
    exact fun _ => rfl

/-- INTERNAL: so is the request. -/
theorem reads_requestMembers (req : WizRequest) (depth : ℕ) :
    ∀ m ∈ requestMembers req, Reads (depth + 2) m.ts m.value := by
  intro m hm
  simp only [requestMembers, List.mem_cons, List.not_mem_nil, or_false] at hm
  rcases hm with rfl | rfl
  · exact reads_string _ _
  · exact reads_object _ _ (reads_params req depth)

/-- INTERNAL: the tokens of a request. -/
theorem tokens_request (req : WizRequest) :
    utf8CheckString req.text = true ∧
      tokens req.text =
        some (.openBrace :: (membersTokens (requestMembers req) ++ [.closeBrace])) := by
  cases req with
  | getPilot => exact ⟨by decide +kernel, by decide +kernel⟩
  | setState on => cases on <;> exact ⟨by decide +kernel, by decide +kernel⟩
  | setRgb r g b =>
    have hsound : ∀ p ∈ rgbParts r g b, p.Sound := by
      intro p hp
      simp only [rgbParts, List.mem_cons, List.not_mem_nil, or_false] at hp
      rcases hp with rfl | rfl | rfl | rfl
      · exact sound_fixed _ _ (by decide +kernel)
      · exact sound_number _ _ _ (clamp255_fits r) (by decide +kernel)
      · exact sound_number _ _ _ (clamp255_fits g) (by decide +kernel)
      · exact sound_number _ _ _ (clamp255_fits b) (by decide +kernel)
    show utf8CheckString (setRgbRequest r g b) = true ∧ tokens (setRgbRequest r g b) = _
    rw [setRgbRequest_eq, utf8CheckString_render _ hsound]
    exact ⟨rfl, tokens_render _ hsound fun s hs => by cases hs⟩
  | setBrightness level =>
    have hsound : ∀ p ∈ brightnessParts level, p.Sound := by
      intro p hp
      simp only [brightnessParts, List.mem_cons, List.not_mem_nil, or_false] at hp
      rcases hp with rfl | rfl
      · exact sound_fixed _ _ (by decide +kernel)
      · exact sound_number _ _ _ (dimmingLevel_fits level) (by decide +kernel)
    show utf8CheckString (setBrightnessRequest level) = true ∧
      tokens (setBrightnessRequest level) = _
    rw [setBrightnessRequest_eq, utf8CheckString_render _ hsound]
    exact ⟨rfl, tokens_render _ hsound fun s hs => by cases hs⟩

/-- INTERNAL: **a request is read** as its method and its parameters. -/
theorem loads_request (req : WizRequest) :
    loads req.text = some (ofMembers (requestMembers req)) := by
  obtain ⟨hutf8, htokens⟩ := tokens_request req
  exact loads_of_reads _ _ _ hutf8 htokens (reads_object _ _ (reads_requestMembers req 2045))

/-! ## What is known of a lamp -/

/-- What is known of a lamp: whether it is on, and its level. -/
structure LampKnown where
  on : Option Bool := none
  level : Option ℤ := none

/-- A parameter that a document sets on a lamp. -/
def pilotParam (root : Json) (key : CStr) : Option Json :=
  if root.getString (lit "method") = some (lit "setPilot") then
    (root.get (lit "params")).bind fun params => params.get key
  else none

/-- The value, when it is a truth value. -/
def boolValue : Json → Option Bool
  | .bool b => some b
  | _ => none

/-- The value, when it is an integer. -/
def integerValue : Json → Option ℤ
  | .integer n => some n
  | _ => none

/-- What is known behind a request: what was asked for, if it was answered, and nothing, if it was
not; a request that asks for nothing changes nothing. -/
def knownAfter {α : Type} (asked : Option α) (answered : Bool) (known : Option α) : Option α :=
  match asked with
  | some v => if answered then some v else none
  | none => known

/-- What is known of a lamp behind a datagram to it: a lamp that answers has done what the
datagram says. -/
def LampKnown.take (known : LampKnown) (datagram : CStr) (answered : Bool) : LampKnown :=
  match loads datagram with
  | some root =>
    { on := knownAfter ((pilotParam root (lit "state")).bind boolValue) answered known.on
      level := knownAfter ((pilotParam root (lit "dimming")).bind integerValue) answered known.level }
  | none => known

/-- The two clients have one lamp. -/
def SameLamp (w w' : WifiDev) : Prop := w'.ip = w.ip ∧ w'.port = w.port

instance (w w' : WifiDev) : Decidable (SameLamp w w') := inferInstanceAs (Decidable (_ ∧ _))

/-- What is known of the lamp of a client behind one more event. -/
def LampKnown.after (w : WifiDev) (known : LampKnown) : WifiEvent → LampKnown
  | .request w' req reply => if SameLamp w w' then known.take req.text reply.isSome else known
  | .frame _ _ | .send _ | .report _ _ => known

/-- What is known of it behind some events. -/
def lampKnown (w : WifiDev) (evs : List WifiEvent) : LampKnown := evs.foldl (LampKnown.after w) {}

/-- The reply tells what is known. -/
structure Tells (known : LampKnown) (reply : CStr) : Prop where
  on : ∀ b, known.on = some b →
    ((loads reply).bind fun root => replyField root (lit "state")) = some (.bool b)
  level : ∀ n, known.level = some n →
    ((loads reply).bind fun root => replyField root (lit "dimming")) = some (.integer n)

/-- **The lamp is honest**: a reading that it answers tells what it was told. -/
def HonestLamp (pre : List WifiEvent) : WifiEvent → Prop
  | .request w .getPilot (some reply) => Tells (lampKnown w pre) reply
  | _ => True

/-- INTERNAL: what is known of a lamp goes on with the events. -/
theorem lampKnown_append (w : WifiDev) (first second : List WifiEvent) :
    lampKnown w (first ++ second) = second.foldl (LampKnown.after w) (lampKnown w first) :=
  List.foldl_append

/-- INTERNAL: a parameter of a request. -/
theorem pilotParam_request (req : WizRequest) (hset : req.method = lit "setPilot") (key : CStr) :
    pilotParam (ofMembers (requestMembers req)) key =
      (ofMembers (WizRequest.params req)).get key := by
  have hnodup : ((requestMembers req).map Member.key).Nodup := by
    show [lit "method", lit "params"].Nodup
    decide +kernel
  have hmethod : (ofMembers (requestMembers req)).getString (lit "method") =
      some (lit "setPilot") := by
    have hget : (ofMembers (requestMembers req)).get (lit "method") = some (.string req.method) :=
      get_ofMembers _ hnodup ⟨lit "method", [.string req.method], .string req.method⟩
        List.mem_cons_self
    unfold getString
    rw [hget, hset]
  have hparams : (ofMembers (requestMembers req)).get (lit "params") =
      some (ofMembers (WizRequest.params req)) :=
    get_ofMembers _ hnodup ⟨lit "params", _, _⟩ (List.mem_cons_of_mem _ List.mem_cons_self)
  unfold pilotParam
  rw [if_pos hmethod, hparams, Option.bind_some]

/-- INTERNAL: the only parameter of a request. -/
theorem get_only (m : Member) : (ofMembers [m]).get m.key = some m.value :=
  get_ofMembers [m] (List.nodup_singleton _) m List.mem_cons_self

/-- INTERNAL: members make an object. -/
theorem isObject_ofMembers (ms : List Member) : (ofMembers ms).isObject = true := rfl

/-- INTERNAL: a call for the state makes it known, if it is answered. -/
theorem take_setState (known : LampKnown) (on answered : Bool) :
    known.take (WizRequest.setState on).text answered =
      { known with on := if answered then some on else none } := by
  have hon : (ofMembers (WizRequest.params (.setState on))).get (lit "state") = some (.bool on) :=
    get_only ⟨lit "state", [.bool on], .bool on⟩
  have hlevel : (ofMembers (WizRequest.params (.setState on))).get (lit "dimming") = none :=
    get_ofMembers_none _ _ (by
      show lit "dimming" ∉ [lit "state"]
      decide +kernel)
  unfold LampKnown.take
  rw [loads_request]
  dsimp only
  rw [pilotParam_request _ rfl, pilotParam_request _ rfl, hon, hlevel]
  rfl

/-- INTERNAL: so does one for the level. -/
theorem take_setBrightness (known : LampKnown) (level : ℤ) (answered : Bool) :
    known.take (WizRequest.setBrightness level).text answered =
      { known with level := if answered then some (dimmingLevel level) else none } := by
  have hon : (ofMembers (WizRequest.params (.setBrightness level))).get (lit "state") = none :=
    get_ofMembers_none _ _ (by
      show lit "state" ∉ [lit "dimming"]
      decide +kernel)
  have hlevel : (ofMembers (WizRequest.params (.setBrightness level))).get (lit "dimming") =
      some (.integer (dimmingLevel level)) :=
    get_only (numberMember (lit "dimming") (dimmingLevel level))
  unfold LampKnown.take
  rw [loads_request]
  dsimp only
  rw [pilotParam_request _ rfl, pilotParam_request _ rfl, hon, hlevel]
  rfl

/-- INTERNAL: **a reading changes nothing**. -/
theorem take_getPilot (known : LampKnown) (answered : Bool) :
    known.take WizRequest.getPilot.text answered = known := by
  have hparam : ∀ key, pilotParam (ofMembers (requestMembers .getPilot)) key = none := by
    intro key
    unfold pilotParam
    rw [if_neg]
    have hget : (ofMembers (requestMembers .getPilot)).getString (lit "method") =
        some (lit "getPilot") := by decide +kernel
    rw [hget]
    decide
  unfold LampKnown.take
  rw [loads_request]
  dsimp only
  rw [hparam, hparam]
  rfl

/-! ## What a PUT makes known -/

/-- Does the PUT leave the light on? -/
def switchesOn (path payload : CStr) : Bool :=
  if path = hesLxLightCv then payloadToBool payload else 0 < atoi payload

/-- INTERNAL: **the calls of a PUT**, all answered, leave the lamp as the PUT says. -/
theorem known_commands (w w' : WifiDev) (hlamp : SameLamp w w') (path payload : CStr)
    (calls : List (WizRequest × Option CStr))
    (hcalls : calls.map Prod.fst = commandsOf path payload)
    (hanswered : ∀ c ∈ calls, c.2.isSome = true) (known : LampKnown) :
    (path = hesLxLightCv ∨ path = hesLxLightBrightnessCv →
        ((requestsOf w' calls).foldl (LampKnown.after w) known).on =
          some (switchesOn path payload)) ∧
      (path = hesLxLightBrightnessCv → 0 < atoi payload →
        ((requestsOf w' calls).foldl (LampKnown.after w) known).level =
          some (dimmingLevel (atoi payload))) := by
  have hafter : ∀ known req reply, LampKnown.after w known (.request w' req reply) =
      known.take req.text reply.isSome := fun known req reply => if_pos hlamp
  have hne : hesLxLightBrightnessCv ≠ hesLxLightCv := by decide
  unfold commandsOf at hcalls
  unfold switchesOn
  by_cases hlight : path = hesLxLightCv
  · rw [if_pos hlight] at hcalls ⊢
    obtain ⟨⟨req, reply⟩, rest, rfl, hreq, hrest⟩ := List.map_eq_cons_iff.mp hcalls
    obtain rfl := List.map_eq_nil_iff.mp hrest
    dsimp only at hreq
    subst hreq
    have hreply : reply.isSome = true := hanswered _ List.mem_cons_self
    refine ⟨fun _ => ?_, fun hlevel => absurd (hlevel.symm.trans hlight) hne⟩
    show (LampKnown.after w known (.request w' _ reply)).on = _
    rw [hafter, hreply, take_setState]
    rfl
  · rw [if_neg hlight] at hcalls ⊢
    by_cases hpath : path = hesLxLightBrightnessCv
    · rw [if_pos hpath] at hcalls
      by_cases hpos : atoi payload ≤ 0
      · rw [if_pos hpos] at hcalls
        obtain ⟨⟨req, reply⟩, rest, rfl, hreq, hrest⟩ := List.map_eq_cons_iff.mp hcalls
        obtain rfl := List.map_eq_nil_iff.mp hrest
        dsimp only at hreq
        subst hreq
        have hreply : reply.isSome = true := hanswered _ List.mem_cons_self
        refine ⟨fun _ => ?_, fun _ hlevel => absurd hpos (not_le.mpr hlevel)⟩
        show (LampKnown.after w known (.request w' _ reply)).on = _
        rw [hafter, hreply, take_setState, decide_eq_false (not_lt.mpr hpos)]
        rfl
      · rw [if_neg hpos] at hcalls
        obtain ⟨⟨req, reply⟩, rest, rfl, hreq, hrest⟩ := List.map_eq_cons_iff.mp hcalls
        obtain ⟨⟨req', reply'⟩, rest', rfl, hreq', hrest'⟩ := List.map_eq_cons_iff.mp hrest
        obtain rfl := List.map_eq_nil_iff.mp hrest'
        dsimp only at hreq hreq'
        subst hreq hreq'
        have hreply : reply.isSome = true := hanswered _ List.mem_cons_self
        have hreply' : reply'.isSome = true :=
          hanswered _ (List.mem_cons_of_mem _ List.mem_cons_self)
        have hknown : (requestsOf w' [(.setState true, reply),
            (.setBrightness (atoi payload), reply')]).foldl (LampKnown.after w) known =
              ⟨some true, some (dimmingLevel (atoi payload))⟩ := by
          show LampKnown.after w (LampKnown.after w known (.request w' _ reply))
            (.request w' _ reply') = _
          rw [hafter, hafter, hreply, hreply', take_setState, take_setBrightness]
          rfl
        rw [hknown, decide_eq_true (not_le.mp hpos)]
        exact ⟨fun _ => rfl, fun _ _ => rfl⟩
    · exact ⟨fun h => absurd h (not_or.mpr ⟨hlight, hpath⟩), fun h => absurd h hpath⟩

/-- INTERNAL: what asks this lamp for nothing leaves what is known. -/
theorem known_kept (w : WifiDev) (evs : List WifiEvent)
    (h : ∀ w' req reply, .request w' req reply ∈ evs → SameLamp w w' → req = .getPilot)
    (known : LampKnown) : evs.foldl (LampKnown.after w) known = known := by
  induction evs generalizing known with
  | nil => rfl
  | cons e rest ih =>
    have hstep : LampKnown.after w known e = known := by
      cases e with
      | request w' req reply =>
        show (if SameLamp w w' then _ else _) = _
        split
        next hlamp =>
          rw [h w' req reply List.mem_cons_self hlamp]
          exact take_getPilot known _
        · rfl
      | frame m reg => rfl
      | send m => rfl
      | report reg t => rfl
    rw [List.foldl_cons, hstep]
    exact ih (fun w' req reply hmem => h w' req reply (List.mem_cons_of_mem _ hmem)) known

/-! ## What stands behind a PUT -/

/-- The message commands the lamp of a client. -/
def Commands (reg : HesDevreg) (m : HesClmeMsg) (w : WifiDev) : Prop :=
  m.verb = .put ∧ ∃ dev obj, Addresses reg m w.regIdx dev obj ∧ obj.isWritten = true

/-- **The calls of a PUT** stand directly behind it. -/
def Obeyed (start : WifiState) : WifiEvent → List WifiEvent → Prop
  | .frame m reg, post => ∀ w ∈ start.devs, Commands reg m w →
    ∃ w' calls rest, post = requestsOf w' calls ++ rest ∧ w' ∈ start.devs ∧ w'.regIdx = w.regIdx ∧
      calls.map Prod.fst = commandsOf m.path m.payload
  | .request _ _ _, _ | .send _, _ | .report _ _, _ => True

/-- INTERNAL: what is obeyed stays so, whatever follows. -/
theorem Obeyed.append (start : WifiState) (e : WifiEvent) (post more : List WifiEvent)
    (h : Obeyed start e post) : Obeyed start e (post ++ more) := by
  cases e with
  | frame m reg =>
    intro w hw hcommands
    obtain ⟨w', calls, rest, hpost, hcalls⟩ := h w hw hcommands
    exact ⟨w', calls, rest ++ more, by rw [hpost, List.append_assoc], hcalls⟩
  | request w req reply => trivial
  | send m => trivial
  | report reg t => trivial

/-- INTERNAL: events without a message ask for nothing. -/
theorem obeyed_of_no_frames (start : WifiState) (evs : List WifiEvent) (h : framesOf evs = []) :
    EveryTail (Obeyed start) evs := by
  apply everyTail_of_forall
  intro e he post
  cases e with
  | frame m reg =>
    have hmem := mem_framesOf evs m reg he
    rw [h] at hmem
    cases hmem
  | request w req reply => trivial
  | send m => trivial
  | report reg t => trivial

section Passes

variable (lamp : ℕ → Option CStr) (exchange : ℕ → Exchange)

/-- INTERNAL: a PUT that commands a lamp has its target. -/
theorem target_of_commands (s : WifiState) (m : HesClmeMsg) (w : WifiDev) (hw : w ∈ s.devs)
    (hcommands : Commands s.sys.reg m w) :
    ∃ dev w' obj, s.target m = some (dev, w', obj) ∧ obj.isWritten = true ∧ w' ∈ s.devs ∧
      w'.regIdx = w.regIdx ∧ obj.path = m.path := by
  obtain ⟨-, dev, obj, haddr, hwritten⟩ := hcommands
  have hfound : (findOpen s.devs w.regIdx).isSome = true := by
    unfold findOpen
    rw [List.find?_isSome]
    exact ⟨w, hw, decide_eq_true rfl⟩
  obtain ⟨w', hfind⟩ := Option.isSome_iff_exists.mp hfound
  have hfind' := hfind
  unfold findOpen at hfind'
  refine ⟨dev, w', obj, ?_, hwritten, List.mem_of_find?_eq_some hfind',
    by simpa using List.find?_some hfind', ?_⟩
  · unfold WifiState.target
    simp only [Option.bind_eq_bind]
    rw [haddr.resolved, Option.bind_some, hfind, Option.bind_some, haddr.device, Option.bind_some,
      haddr.object, Option.bind_some]
  · have hobj := haddr.object
    unfold hesDevObjectFind at hobj
    simpa using List.find?_some hobj

/-- INTERNAL: **a message is taken**: it stands in front of what it asks for. -/
theorem wifiTakeFrame_obeyed (start s : WifiState) (hdevs : s.devs = start.devs) (m : HesClmeMsg)
    (evs : List WifiEvent) (s' : WifiState) (htake : wifiTakeFrame lamp m s = some s')
    (hevs : s'.trace = s.trace ++ .frame m s.sys.reg :: evs) :
    Obeyed start (.frame m s.sys.reg) evs := by
  intro w hw hcommands
  let t := s.log (.frame m s.sys.reg)
  obtain ⟨dev, w', obj, htarget, hwritten, hw', hidx, hpath⟩ :=
    target_of_commands t m w (hdevs ▸ hw) hcommands
  obtain ⟨calls, hwrite, hcalls⟩ := wifiWriteObject_trace lamp w' obj m.payload t
  have hput : wifiPut lamp m t = wifiWriteObject lamp w' obj m.payload t := by
    unfold wifiPut
    rw [htarget]
    exact if_pos hwritten
  have hs' : s' = wifiPut lamp m t := by
    unfold wifiTakeFrame at htake
    rw [hcommands.1] at htake
    exact (Option.some.inj htake).symm
  have htrace : s.trace ++ .frame m s.sys.reg :: evs =
      s.trace ++ .frame m s.sys.reg :: requestsOf w' calls := by
    rw [← hevs, hs', hput, hwrite]
    show (s.trace ++ [_]) ++ requestsOf w' calls = _
    rw [List.append_assoc]
    rfl
  have hsame := (List.cons.inj (List.append_cancel_left htrace)).2
  exact ⟨w', calls, [], by rw [hsame, List.append_nil], hdevs ▸ hw', hidx, hpath ▸ hcalls⟩

/-- INTERNAL: a message that is taken is noted first. -/
theorem wifiTakeFrame_trace (m : HesClmeMsg) (s s' : WifiState)
    (htake : wifiTakeFrame lamp m s = some s') :
    ∃ evs, s'.trace = s.trace ++ .frame m s.sys.reg :: evs := by
  have hlog : (s.log (.frame m s.sys.reg)).trace = s.trace ++ [.frame m s.sys.reg] := rfl
  suffices h : ∃ evs, s'.trace = (s.log (.frame m s.sys.reg)).trace ++ evs by
    obtain ⟨evs, hevs⟩ := h
    rw [hlog, List.append_assoc] at hevs
    exact ⟨evs, hevs⟩
  unfold wifiTakeFrame at htake
  dsimp only at htake
  generalize s.log (.frame m s.sys.reg) = t at htake
  have hnone : ∃ evs, t.trace = t.trace ++ evs := ⟨[], (List.append_nil _).symm⟩
  split at htake
  · cases htake
    unfold wifiPut
    split
    · split
      next dev w obj _ _ =>
        obtain ⟨calls, hcalls, -⟩ := wifiWriteObject_trace lamp w obj m.payload t
        exact ⟨requestsOf w calls, by rw [hcalls]⟩
      · exact hnone
    · exact hnone
  · unfold wifiGet at htake
    split at htake
    next dev w obj _ =>
      split at htake
      · obtain ⟨⟨u, val⟩, hread, rfl⟩ := Option.map_eq_some_iff.mp htake
        dsimp only
        rcases wifiReadObject_some lamp w obj t u val hread with ⟨rfl, rfl⟩ | ⟨reply, rfl, -⟩
        · exact hnone
        · split
          next val =>
            exact ⟨[.request w .getPilot reply, .send (getAnswer dev m.path val)],
              List.append_assoc _ _ _⟩
          · exact ⟨_, rfl⟩
      · cases htake
        exact hnone
    · cases htake
      exact hnone
  · cases htake
    exact hnone

/-- INTERNAL: a pass that takes a message, and then the rest of it. -/
theorem wifiTurn_split (s : WifiState) (turn : WifiTurn) :
    wifiTurn lamp exchange s turn =
      (turn.frame.elim (some s) fun m => wifiTakeFrame lamp m s).bind fun u =>
        wifiTurn lamp exchange u { turn with frame := none } := by
  unfold wifiTurn wifiListen
  cases turn.frame with
  | none => rfl
  | some m =>
    dsimp only [Option.elim_some, Option.elim_none]
    cases wifiTakeFrame lamp m s <;> rfl

/-- INTERNAL: **a pass** keeps it that PUTs are obeyed. -/
theorem wifiTurn_obeyed (start s : WifiState) (h : Follows start s) (turn : WifiTurn)
    (s' : WifiState) (hturn : wifiTurn lamp exchange s turn = some s')
    (hobeyed : EveryTail (Obeyed start) s.trace) : EveryTail (Obeyed start) s'.trace := by
  rw [wifiTurn_split] at hturn
  obtain ⟨u, hu, hrest⟩ := Option.bind_eq_some_iff.mp hturn
  have hframe : Follows start u ∧ EveryTail (Obeyed start) u.trace := by
    cases hf : turn.frame with
    | none =>
      rw [hf] at hu
      cases hu
      exact ⟨h, hobeyed⟩
    | some m =>
      rw [hf] at hu
      obtain ⟨evs, hevs⟩ := wifiTakeFrame_trace lamp m s u hu
      have hfollows := Follows.step start s u (wifiTakeFrame_attributed lamp start s h m u hu) h
      have hnone : framesOf evs = [] := by
        have hframes := wifiTakeFrame_frames lamp m s u hu
        rw [hevs, framesOf_append] at hframes
        have htail : framesOf (.frame m s.sys.reg :: evs) = [m] :=
          List.append_cancel_left hframes
        exact (List.cons.inj htail).2
      refine ⟨hfollows, ?_⟩
      rw [hevs]
      refine EveryTail.append _ (Obeyed.append start) _ _ hobeyed ?_
      exact everyTail_cons _ _ _ (wifiTakeFrame_obeyed lamp start s h.devs m evs u hu hevs)
        (obeyed_of_no_frames start evs hnone)
  obtain ⟨evs, hevs, -⟩ :=
    (wifiTurn_attributed lamp exchange start u hframe.1 _ s' hrest).events
  have hnone : framesOf evs = [] := by
    have hframes := wifiTurn_frames lamp exchange u _ s' hrest
    rw [hevs, framesOf_append] at hframes
    exact List.append_cancel_left hframes
  rw [hevs]
  exact EveryTail.append _ (Obeyed.append start) _ _ hframe.2 (obeyed_of_no_frames start evs hnone)

/-- INTERNAL: **a run** obeys each PUT at once. -/
theorem wifiLoop_obeyed (start s : WifiState) (h : Follows start s) (turns : List WifiTurn)
    (s' : WifiState) (hrun : wifiLoop lamp exchange s turns = some s')
    (hobeyed : EveryTail (Obeyed start) s.trace) : EveryTail (Obeyed start) s'.trace := by
  induction turns generalizing s with
  | nil =>
    cases hrun
    exact hobeyed
  | cons turn rest ih =>
    unfold wifiLoop at hrun
    rw [List.foldlM_cons] at hrun
    obtain ⟨t, ht, hrest⟩ := Option.bind_eq_some_iff.mp hrun
    exact ih t (Follows.step start s t (wifiTurn_attributed lamp exchange start s h turn t ht) h)
      hrest (wifiTurn_obeyed lamp exchange start s h turn t ht hobeyed)

end Passes

/-! ## Readings behind a command -/

/-- The event is a message that was taken. -/
def IsFrame : WifiEvent → Prop
  | .frame _ _ => True
  | .request _ _ _ | .send _ | .report _ _ => False

/-- INTERNAL: calls are no frames. -/
theorem isFrame_requestsOf (w : WifiDev) (calls : List (WizRequest × Option CStr)) :
    ∀ e ∈ requestsOf w calls, ¬ IsFrame e := by
  intro e he
  obtain ⟨c, -, rfl⟩ := List.mem_map.mp he
  exact id

/-- INTERNAL: calls of a PUT that stand in front of something else. -/
theorem requestsOf_before_send (w : WifiDev) (calls : List (WizRequest × Option CStr))
    (mid rest post : List WifiEvent) (m : HesClmeMsg)
    (h : mid ++ .send m :: post = requestsOf w calls ++ rest) :
    ∃ more, mid = requestsOf w calls ++ more := by
  rcases List.append_eq_append_iff.mp h with ⟨more, hmore, -⟩ | ⟨more, hmore, -⟩
  · cases more with
    | nil => exact ⟨[], by rw [hmore, List.append_nil, List.append_nil]⟩
    | cons e more =>
      have htail : .send m :: post = e :: more ++ rest := by
        rw [hmore, List.append_assoc] at h
        exact List.append_cancel_left h
      obtain ⟨rfl, -⟩ := List.cons.inj htail
      have hmem : .send m ∈ requestsOf w calls := by
        rw [hmore]
        simp
      obtain ⟨c, -, hc⟩ := List.mem_map.mp hmem
      cases hc
  · exact ⟨more, hmore⟩

/-- INTERNAL: **no command of the PUT comes late**: behind its calls, and before the next PUT for
that lamp, the lamp is only read. -/
theorem only_readings (start : WifiState) (before more : List WifiEvent) (f : HesClmeMsg)
    (reg : HesDevreg) (w w' : WifiDev) (calls : List (WizRequest × Option CStr))
    (hcalls : calls.map Prod.fst = commandsOf f.path f.payload)
    (hattr : EveryEvent (Attributed start) (before ++ .frame f reg :: (requestsOf w' calls ++ more)))
    (hlast : ∀ g greg w'', .frame g greg ∈ more → w'' ∈ start.devs → SameLamp w w'' →
      ¬ Commands greg g w'') :
    ∀ w'' req reply, .request w'' req reply ∈ more → SameLamp w w'' → req = .getPilot := by
  intro w'' req reply hmem hlamp
  by_contra hreq
  obtain ⟨first, second, rfl⟩ := List.append_of_mem hmem
  have hsplit : before ++ .frame f reg ::
      (requestsOf w' calls ++ (first ++ .request w'' req reply :: second)) =
      (before ++ .frame f reg :: (requestsOf w' calls ++ first)) ++
        .request w'' req reply :: second := by
    simp only [List.append_assoc, List.cons_append]
  have hstands : CommandOf start (before ++ .frame f reg :: (requestsOf w' calls ++ first)) w'' req :=
    hattr _ _ _ hsplit hreq
  obtain ⟨pre, g, greg, calls', rest, dev, obj, boot, hpre, hput, hcommand, haddr, hwritten,
    hopened, -⟩ := hstands
  have hnot : .frame g greg ∉ first := fun hg =>
    hlast g greg w'' (List.mem_append_left _ hg) hopened.client hlamp
      ⟨hput, dev, obj, haddr, hwritten⟩
  -- the PUT of the command is the one in front, all of whose calls are there already
  have happend : (before ++ .frame f reg :: requestsOf w' calls) ++ first =
      pre ++ .frame g greg :: requestsOf w'' calls' := by
    rw [← hpre]
    simp only [List.append_assoc, List.cons_append]
  rcases List.append_eq_append_iff.mp happend with ⟨mid, -, hmid⟩ | ⟨mid, hmid, hrest⟩
  · exact hnot (hmid ▸ List.mem_append_right _ List.mem_cons_self)
  · cases mid with
    | nil =>
      rw [List.nil_append] at hrest
      exact hnot (hrest ▸ List.mem_cons_self)
    | cons e mid =>
      rw [List.cons_append] at hrest
      obtain ⟨rfl, hcalls'⟩ := List.cons.inj hrest
      have hmid' : ∀ e ∈ mid, ¬ IsFrame e := fun e he =>
        isFrame_requestsOf w'' calls' e (hcalls' ▸ List.mem_append_left _ he)
      obtain ⟨-, hsame, hall⟩ := last_unique IsFrame _ _ _ _ _ _ hmid trivial trivial
        (isFrame_requestsOf w' calls) hmid'
      obtain ⟨rfl, rfl⟩ := WifiEvent.frame.inj hsame
      have hlength := congrArg List.length hcalls'
      have hcount := congrArg List.length (hcalls.trans hcommand)
      rw [← hall] at hlength
      simp only [requestsOf, List.length_map, List.length_append, List.length_cons] at hlength hcount
      omega

/-- INTERNAL: clients of one device have one lamp. -/
theorem opened_same (start : WifiState) (w w' : WifiDev) (boot : HesDevice)
    (hopened : OpenedFor start w boot) (h : Follows start start) (hw' : w' ∈ start.devs)
    (hidx : w'.regIdx = w.regIdx) : SameLamp w w' := by
  obtain ⟨boot', hopened'⟩ := h.opened w' hw'
  obtain rfl : boot = boot' := by
    have hdevice := hopened'.device
    rw [hidx, hopened.device] at hdevice
    exact Option.some.inj hdevice
  exact ⟨hopened'.ip.trans hopened.ip.symm, hopened'.port.trans hopened.port.symm⟩

/-- INTERNAL: nothing is read of no reply. -/
theorem readingOf_none (path : CStr) : readingOf path none = none := by
  unfold readingOf
  split
  · rfl
  · split <;> rfl

/-- INTERNAL: the same lamp is known by the same events. -/
theorem lampKnown_same (w w' : WifiDev) (h : SameLamp w w') (evs : List WifiEvent) :
    lampKnown w' evs = lampKnown w evs := by
  unfold lampKnown
  congr 1
  funext known e
  cases e with
  | request v req reply =>
    have hiff : SameLamp w' v ↔ SameLamp w v := by
      unfold SameLamp
      rw [h.1, h.2]
    show (if SameLamp w' v then _ else _) = if SameLamp w v then _ else _
    simp only [hiff]
  | frame m reg => rfl
  | send m => rfl
  | report reg t => rfl

/-- INTERNAL: what a reading of the light makes of a reply that tells it. -/
theorem light_reading (path text payload : CStr) (on : Bool) (hpath : path = hesLxLightCv)
    (htells : ((loads text).bind fun root => replyField root (lit "state")) = some (.bool on))
    (hreading : readingOf path (some text) = some payload) :
    payload = lit (if on then "1" else "0") := by
  have hstate : wizClientGetState (some text) = some on := by
    unfold wizClientGetState
    rw [Option.bind_some, htells]
  unfold readingOf at hreading
  rw [if_pos hpath, hstate, Option.map_some] at hreading
  exact (Option.some.inj hreading).symm

/-- INTERNAL: what a reading of the brightness makes of a reply that tells it. -/
theorem level_reading (path text payload : CStr) (level : ℤ)
    (hpath : path = hesLxLightBrightnessCv)
    (htells : ((loads text).bind fun root => replyField root (lit "dimming")) =
      some (.integer (dimmingLevel level)))
    (hreading : readingOf path (some text) = some payload) :
    payload = fmtD (dimmingLevel level) := by
  obtain ⟨hlow, hhigh⟩ := dimmingLevel_bounds level
  obtain ⟨root, hroot, hfield⟩ := Option.bind_eq_some_iff.mp htells
  have hfits : FitsInt32 (dimmingLevel level) := by
    unfold FitsInt32
    omega
  have hclamp : clamp100 (dimmingLevel level) = dimmingLevel level := by
    unfold clamp100
    rw [if_neg (by omega), if_neg (by omega)]
  have hlevel : wizClientGetBrightness (some text) = some (some (dimmingLevel level)) := by
    have hnumber : replyNumber root (lit "dimming") =
        some (Binary64.ofInt (dimmingLevel level)) := by
      unfold replyNumber
      rw [hfield]
      rfl
    unfold wizClientGetBrightness
    rw [Option.bind_some, hroot]
    dsimp only
    rw [brightnessOfReply_dimming root _ hnumber, Binary64.toInt_ofInt _ hfits, Option.map_some,
      hclamp]
  have hne : path ≠ hesLxLightCv := by
    rw [hpath]
    decide
  unfold readingOf at hreading
  rw [if_neg hne, if_pos hpath, hlevel] at hreading
  rw [← Option.some.inj hreading]
  apply boundedCopy_of_short
  have := fmtD_length _ (dimmingLevel_fits level)
  omega

/-- **Readings follow commands.** The lamps are honest, and the devices have different indexes. In
every run of the module, behind a PUT for a light whose calls are answered, and up to the next PUT
for that lamp, every value published of the light is the one that was commanded: on or off for the
light, the level between 10 and 100 for the brightness.
SRCLINE: han/wifi/wifi.c:181-228, 377-449; han/wifi/wiz_client.c:307-352, 408-490 -/
theorem readings_follow_commands (pf : MsProfile) (moduleRef : ℕ) (bulbIp : CStr) (t : Exchange)
    (opened : ℕ → Bool) (start : WifiState)
    (hboot : hanWifiBoot pf moduleRef bulbIp t opened = some start) (lamp : ℕ → Option CStr)
    (exchange : ℕ → Exchange) (turns : List WifiTurn) (s : WifiState)
    (hrun : wifiLoop lamp exchange start turns = some s)
    (hdistinct : (start.sys.reg.devices.map HesDevice.deviceIndex).Nodup)
    (hhonest : EveryEvent HonestLamp s.trace) (before mid post : List WifiEvent) (f m : HesClmeMsg)
    (reg : HesDevreg) (htrace : s.trace = before ++ .frame f reg :: (mid ++ .send m :: post))
    (w : WifiDev) (boot : HesDevice) (hopened : OpenedFor start w boot)
    (hcommand : Commands reg f w)
    (hlast : ∀ g greg w', .frame g greg ∈ mid → w' ∈ start.devs → SameLamp w w' →
      ¬ Commands greg g w')
    (hanswered : ∀ w' req, .request w' req none ∈ mid → SameLamp w w' → req = .getPilot)
    (hdevice : m.deviceIndex = boot.deviceIndex) :
    (m.path = hesLxLightCv → f.path = hesLxLightCv ∨ f.path = hesLxLightBrightnessCv →
        m.payload = lit (if switchesOn f.path f.payload then "1" else "0")) ∧
      (m.path = hesLxLightBrightnessCv → f.path = hesLxLightBrightnessCv → 0 < atoi f.payload →
        m.payload = fmtD (dimmingLevel (atoi f.payload))) := by
  obtain ⟨hfollows, hempty⟩ := hanWifiBoot_follows pf moduleRef bulbIp t opened start hboot
  have hattr := wifiLoop_attributed lamp exchange start hfollows hempty turns s hrun
  have hobeyed : EveryTail (Obeyed start) s.trace := by
    refine wifiLoop_obeyed lamp exchange start start hfollows turns s hrun ?_
    rw [hempty]
    exact everyTail_of_forall _ _ fun e he => absurd he List.not_mem_nil
  -- the calls of the PUT, and what is asked of the lamp behind them
  obtain ⟨w', calls, rest, hpost, hw', hidx, hcalls⟩ :=
    hobeyed before _ _ htrace w hopened.client hcommand
  obtain ⟨more, rfl⟩ := requestsOf_before_send w' calls mid rest post m hpost
  have hlamp' : SameLamp w w' := opened_same start w w' boot hopened hfollows hw' hidx
  have htrace' : s.trace =
      (before ++ .frame f reg :: (requestsOf w' calls ++ more)) ++ .send m :: post :=
    htrace.trans (by simp only [List.append_assoc, List.cons_append])
  have honly := only_readings start before more f reg w w' calls hcalls
    ((everyEvent_append _ _ _).mp (htrace' ▸ hattr)).1
    fun g greg w'' hg => hlast g greg w'' (List.mem_append_right _ hg)
  have hknown : ∃ known, lampKnown w (before ++ .frame f reg :: (requestsOf w' calls ++ more)) =
      (requestsOf w' calls).foldl (LampKnown.after w) known := by
    refine ⟨lampKnown w before, ?_⟩
    rw [lampKnown_append, List.foldl_cons, List.foldl_append, known_kept w more honly]
    rfl
  obtain ⟨known, hknown⟩ := hknown
  have hall : ∀ c ∈ calls, c.2.isSome = true := by
    rintro ⟨req, reply⟩ hc
    cases reply with
    | some text => rfl
    | none =>
      have hmem : req ∈ commandsOf f.path f.payload := hcalls ▸ List.mem_map_of_mem hc
      have hcall : .request w' req none ∈ requestsOf w' calls := List.mem_map.mpr ⟨_, hc, rfl⟩
      have hreq := hanswered w' req (List.mem_append_left _ hcall) hlamp'
      exact absurd (hreq ▸ hmem) (getPilot_not_commanded _ _)
  obtain ⟨hon, hlevel⟩ := known_commands w w' hlamp' f.path f.payload calls hcalls hall known
  rw [← hknown] at hon hlevel
  -- the reading, which the lamp of the PUT has answered
  obtain ⟨pre, w'', reply, boot', obj, hpre, hopened', -, -, -, hdi, hpath, hreading⟩ :=
    hattr _ _ _ htrace'
  have hsame : SameLamp w w'' := by
    refine opened_same start w w'' boot hopened hfollows hopened'.client ?_
    have hindex : (start.sys.reg.devices.map HesDevice.deviceIndex)[w''.regIdx]? =
        (start.sys.reg.devices.map HesDevice.deviceIndex)[w.regIdx]? := by
      rw [List.getElem?_map, List.getElem?_map, hopened'.device, hopened.device, Option.map_some,
        Option.map_some, ← hdi, hdevice]
    have hlt : w''.regIdx < (start.sys.reg.devices.map HesDevice.deviceIndex).length := by
      rw [List.length_map]
      exact (List.getElem?_eq_some_iff.mp hopened'.device).1
    exact (List.getElem?_inj hlt hdistinct).mp hindex
  cases reply with
  | none =>
    have hnone : readingOf obj.path none = none := readingOf_none obj.path
    rw [hnone] at hreading
    cases hreading
  | some text =>
    have htells : Tells (lampKnown w pre) text := by
      rw [← lampKnown_same w w'' hsame pre]
      have hstands : s.trace = pre ++ .request w'' .getPilot (some text) :: .send m :: post := by
        rw [htrace', hpre, List.append_assoc]
        rfl
      exact hhonest pre _ _ hstands
    have hread : lampKnown w pre =
        lampKnown w (before ++ .frame f reg :: (requestsOf w' calls ++ more)) := by
      rw [hpre, lampKnown_append]
      refine (known_kept w _ ?_ _).symm
      intro v req reply hmem _
      cases List.mem_singleton.mp hmem
      rfl
    rw [hread] at htells
    refine ⟨fun hm hf => ?_, fun hm hf hpos => ?_⟩
    · exact light_reading _ _ _ _ (hpath.symm.trans hm) (htells.on _ (hon hf)) hreading
    · exact level_reading _ _ _ _ (hpath.symm.trans hm) (htells.level _ (hlevel hf hpos)) hreading

/-- The PUT that dims the lamp. -/
def dimCommand : HesClmeMsg :=
  { verb := .put, deviceIndex := 2, path := hesLxLightBrightnessCv, payload := lit "40" }

/-- What the lamp answers to a command. -/
def lampDone : CStr := lit "\x7b\"result\":\x7b\"success\":true\x7d\x7d"

/-- What the dimmed lamp answers to a reading. -/
def lampDimmed : CStr := lit "\x7b\"result\":\x7b\"state\":true,\"dimming\":40\x7d\x7d"

/-- The device of the lamp. -/
def lampDevice : HesDevice :=
  ⟨2, 1, [], [], [], lit "192.168.1.142", 38899, true,
    [⟨hesLxLightCv, lit "rw"⟩, ⟨hesLxLightBrightnessCv, lit "rw"⟩]⟩

/-- The members of what it tells. -/
def lampDimmedMembers : List Member :=
  [⟨lit "state", [.bool true], .bool true⟩, numberMember (lit "dimming") 40]

/-- The command to the lamp and what it asks for. -/
def dimmingEvents (reg : HesDevreg) : List WifiEvent :=
  [.frame dimCommand reg, .request lampClient (.setState true) (some lampDone),
    .request lampClient (.setBrightness 40) (some lampDone)]

/-- The poll behind it, up to the last message. -/
def dimmedEvents : List WifiEvent :=
  [.request lampClient .getPilot (some lampDimmed),
    .send (pollEvent lampDevice hesLxLightCv (lit "1")),
    .request lampClient .getPilot (some lampDimmed)]

/-- INTERNAL: the members of the dimmed lamp's reply are read. -/
theorem reads_lampDimmed (depth : ℕ) :
    ∀ m ∈ [Member.mk (lit "result") (.openBrace :: (membersTokens lampDimmedMembers ++ [.closeBrace]))
      (ofMembers lampDimmedMembers)], Reads (depth + 2) m.ts m.value := by
  intro m hm
  rw [List.mem_singleton.mp hm]
  refine reads_object _ _ ?_
  intro m hm
  simp only [lampDimmedMembers, List.mem_cons, List.not_mem_nil, or_false] at hm
  rcases hm with rfl | rfl <;> exact fun _ => rfl

/-- INTERNAL: its reply is read as its document. -/
theorem loads_lampDimmed :
    loads lampDimmed = some (ofMembers [⟨lit "result",
      .openBrace :: (membersTokens lampDimmedMembers ++ [.closeBrace]),
      ofMembers lampDimmedMembers⟩]) := by
  have htokens : tokens lampDimmed = some (.openBrace :: (membersTokens [⟨lit "result",
      .openBrace :: (membersTokens lampDimmedMembers ++ [.closeBrace]),
      ofMembers lampDimmedMembers⟩] ++ [.closeBrace])) := by
    decide +kernel
  exact loads_of_reads _ _ _ (by decide +kernel) htokens (reads_object _ _ (reads_lampDimmed 2045))

/-- INTERNAL: what the lamp answers is what it was told. -/
theorem lampDimmed_tells : Tells ⟨some true, some 40⟩ lampDimmed := by
  have hfield : ∀ m ∈ lampDimmedMembers,
      ((loads lampDimmed).bind fun root => replyField root m.key) = some m.value := by
    intro m hm
    have hget : (ofMembers lampDimmedMembers).get m.key = some m.value :=
      get_ofMembers _ (by decide +kernel) m hm
    have hresult := get_only ⟨lit "result",
      .openBrace :: (membersTokens lampDimmedMembers ++ [.closeBrace]), ofMembers lampDimmedMembers⟩
    dsimp only at hresult
    rw [loads_lampDimmed, Option.bind_some]
    unfold replyField
    rw [hresult, Option.filter_some, if_pos (isObject_ofMembers _), Option.bind_some, hget,
      Option.some_or]
  constructor
  · rintro b ⟨⟩
    exact hfield ⟨lit "state", [.bool true], .bool true⟩ List.mem_cons_self
  · rintro n ⟨⟩
    exact hfield (numberMember (lit "dimming") 40) (List.mem_cons_of_mem _ List.mem_cons_self)

/-- INTERNAL: readings leave what is known of the dimmed lamp. -/
theorem lampKnown_dimmed (reg : HesDevreg) (more : List WifiEvent)
    (hmore : ∀ w req reply, .request w req reply ∈ more → req = .getPilot) :
    lampKnown lampClient (dimmingEvents reg ++ more) = ⟨some true, some 40⟩ := by
  let calls : List (WizRequest × Option CStr) :=
    [(.setState true, some lampDone), (.setBrightness 40, some lampDone)]
  have hfold : lampKnown lampClient (dimmingEvents reg) =
      (requestsOf lampClient calls).foldl (LampKnown.after lampClient) {} := by
    unfold lampKnown dimmingEvents
    rw [List.foldl_cons]
    rfl
  have hcalls : calls.map Prod.fst = commandsOf hesLxLightBrightnessCv (lit "40") := by
    decide +kernel
  have hanswered : ∀ c ∈ calls, c.2.isSome = true := by decide +kernel
  obtain ⟨hon, hlevel⟩ := known_commands lampClient lampClient ⟨rfl, rfl⟩ _ _ calls hcalls
    hanswered {}
  have hswitched : switchesOn hesLxLightBrightnessCv (lit "40") = true := by decide +kernel
  have hdimmed : 0 < atoi (lit "40") ∧ dimmingLevel (atoi (lit "40")) = 40 := by decide +kernel
  rw [lampKnown_append, known_kept lampClient more fun w req reply h _ => hmore w req reply h,
    hfold]
  specialize hon (Or.inr rfl)
  specialize hlevel rfl hdimmed.1
  rw [hswitched] at hon
  rw [hdimmed.2] at hlevel
  generalize (requestsOf lampClient calls).foldl (LampKnown.after lampClient) {} = known at *
  obtain ⟨on, level⟩ := known
  rw [LampKnown.mk.injEq]
  exact ⟨hon, hlevel⟩

/-- INTERNAL: the lamp is honest. -/
theorem dimmedEvents_honest (reg : HesDevreg) (m : HesClmeMsg) :
    EveryEvent HonestLamp (dimmingEvents reg ++ (dimmedEvents ++ [.send m])) := by
  rw [everyEvent_append]
  constructor
  · apply everyEvent_of_forall
    intro e he pre
    simp only [dimmingEvents, List.mem_cons, List.not_mem_nil, or_false] at he
    rcases he with rfl | rfl | rfl <;> trivial
  · simp only [dimmedEvents, List.cons_append, List.nil_append, everyEvent_cons]
    refine ⟨?_, trivial, ?_, trivial, everyEvent_nil _⟩
    · show Tells (lampKnown lampClient (dimmingEvents reg ++ [])) lampDimmed
      rw [lampKnown_dimmed reg [] (by simp)]
      exact lampDimmed_tells
    · show Tells (lampKnown lampClient (dimmingEvents reg ++ [_, _])) lampDimmed
      rw [lampKnown_dimmed reg _ ?_]
      · exact lampDimmed_tells
      · intro w req reply h
        simp only [List.mem_cons, List.not_mem_nil, or_false, reduceCtorEq] at h
        cases h
        rfl

/-- A lamp that is switched on and dimmed is read as it was left. -/
theorem readings_follow_commands_dimmed :
    ∃ start s m, hanWifiBoot ⟨[oneLamp]⟩ 2 (lit "192.168.1.142") .answered (fun _ => true) =
        some start ∧
      wifiLoop (fun k => some (if k < 3 then lampDone else lampDimmed)) (fun _ => .answered) start
        lampTurns = some s ∧
      s.trace = dimmingEvents start.sys.reg ++ (dimmedEvents ++ [.send m]) ∧
      m.path = hesLxLightBrightnessCv ∧ m.payload = fmtD (dimmingLevel (atoi (lit "40"))) := by
  let m := pollEvent lampDevice hesLxLightBrightnessCv (lit "40")
  have hrun : ((hanWifiBoot ⟨[oneLamp]⟩ 2 (lit "192.168.1.142") .answered fun _ => true).any
      fun start => (start.devs = [lampClient] && start.sys.reg.devices = [lampDevice] &&
          resolveIndex start.sys.reg dimCommand.path dimCommand.deviceIndex = some 0) &&
        (wifiLoop (fun k => some (if k < 3 then lampDone else lampDimmed)) (fun _ => .answered)
          start lampTurns).any fun s => s.trace = dimmingEvents start.sys.reg ++ (dimmedEvents ++
            [.send (pollEvent lampDevice hesLxLightBrightnessCv (lit "40"))])) = true := by
    decide +kernel
  obtain ⟨start, hboot, hrun⟩ := Option.any_eq_true _ _ |>.mp hrun
  simp only [Bool.and_eq_true, decide_eq_true_iff] at hrun
  obtain ⟨⟨⟨hdevs, hdevices⟩, hresolved⟩, hrun⟩ := hrun
  obtain ⟨s, hs, htrace⟩ := Option.any_eq_true _ _ |>.mp hrun
  rw [decide_eq_true_iff] at htrace
  have hdevice : start.sys.reg.devices[lampClient.regIdx]? = some lampDevice := by
    rw [hdevices]
    rfl
  have hopened : OpenedFor start lampClient lampDevice :=
    ⟨hdevs ▸ List.mem_cons_self, hdevice, rfl, rfl⟩
  have hcommand : Commands start.sys.reg dimCommand lampClient :=
    ⟨rfl, lampDevice, ⟨hesLxLightBrightnessCv, lit "rw"⟩,
      ⟨hresolved, hdevice, rfl, by decide, fun _ => rfl⟩, by decide⟩
  have hdistinct : (start.sys.reg.devices.map HesDevice.deviceIndex).Nodup := by
    rw [hdevices]
    exact List.nodup_singleton _
  have hmid : ∀ e ∈ (dimmingEvents start.sys.reg).tail ++ dimmedEvents,
      (∀ g greg, e ≠ .frame g greg) ∧ ∀ w req, e ≠ .request w req none := by
    intro e he
    simp only [dimmingEvents, dimmedEvents, List.tail_cons, List.cons_append, List.nil_append,
      List.mem_cons, List.not_mem_nil, or_false] at he
    rcases he with rfl | rfl | rfl | rfl | rfl <;> simp
  have hpayload := (readings_follow_commands _ 2 _ .answered _ start hboot _ _ lampTurns s hs
    hdistinct (htrace ▸ dimmedEvents_honest start.sys.reg m) []
    ((dimmingEvents start.sys.reg).tail ++ dimmedEvents) [] dimCommand m start.sys.reg htrace
    lampClient lampDevice hopened hcommand
    (fun g greg w hg => absurd rfl ((hmid _ hg).1 g greg))
    (fun w req hreq => absurd rfl ((hmid _ hreq).2 w req)) rfl).2 rfl rfl (by decide +kernel)
  exact ⟨start, s, m, hboot, hs, htrace, rfl, hpayload⟩

end OpenHes.Analysis
