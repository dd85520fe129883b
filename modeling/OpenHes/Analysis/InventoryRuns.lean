import OpenHes.Analysis.IdentityRecords
import OpenHes.Analysis.ModuleList
import Mathlib.Data.Finset.Card

/-!
# The inventory over a run

What the identification service answers of the gateway's modules while the core refreshes its list
beside a device service that serves others, too: what the addressing table tells until a list is
heard, and from then on the modules of the profile, whatever becomes of later refreshes.
-/

set_option autoImplicit false

namespace OpenHes.Analysis

open OpenHes.Library OpenHes.Library.Json OpenHes.Model

/-! ## The roster -/

/-- What no request changes of a module. -/
def rosterOf (mod : MsModule) : CStr × ℤ × CStr :=
  (mod.moduleType, mod.moduleRefIndex, mod.serviceModuleType)

/-- INTERNAL: replacing the entry that is found by one of the same value keeps the values. -/
theorem map_updateFirst_found {α β : Type} (p : α → Bool) (g : α → β) (entries : List α) (a x : α)
    (hfind : entries.find? p = some a) (h : g x = g a) :
    (updateFirst p (fun _ => x) entries).map g = entries.map g := by
  induction entries with
  | nil => cases hfind
  | cons b rest ih =>
    cases hb : p b with
    | true =>
      rw [List.find?_cons_of_pos hb, Option.some.injEq] at hfind
      rw [updateFirst_cons_of_pos p _ b rest hb, List.map_cons, List.map_cons, hfind, h]
    | false =>
      rw [List.find?_cons_of_neg (by simp [hb])] at hfind
      rw [updateFirst_cons_of_neg p _ b rest hb, List.map_cons, List.map_cons, ih hfind]

/-- INTERNAL: a report leaves what the list tells of the module. -/
theorem applyReport_roster (root : Json) (mod : MsModule) :
    rosterOf (applyReport root mod).1 = rosterOf mod := by
  refine applyReport_invariant (fun m => rosterOf m = rosterOf mod) root ?_ mod rfl
  intro acc e _ h
  unfold reportDevice
  dsimp only
  split
  · exact h
  · exact h

/-- INTERNAL: **a request** keeps the roster. -/
theorem serveRequest_roster (pf : MsProfile) (bytes : List UInt8) :
    (serveRequest pf bytes).pf.modules.map rosterOf = pf.modules.map rosterOf := by
  unfold serveRequest
  rcases handleRequest_pf pf (receivedText msMaxReqBufSize bytes) with
    hsame | ⟨root, mt, mi, mod, -, hfind, heq⟩
  · rw [hsame]
  · rw [heq]
    exact map_updateFirst_found _ _ _ mod _ hfind (applyReport_roster root mod)

/-- INTERNAL: what is true of the rosters of one profile is true of those of another with the
same. -/
theorem forall_of_roster (P : CStr × ℤ × CStr → Prop) (pf pf' : MsProfile)
    (hsame : pf'.modules.map rosterOf = pf.modules.map rosterOf)
    (h : ∀ mod ∈ pf.modules, P (rosterOf mod)) : ∀ mod ∈ pf'.modules, P (rosterOf mod) := by
  have hall := List.forall_mem_map.mpr h
  rw [← hsame] at hall
  exact List.forall_mem_map.mp hall

/-- INTERNAL: the modules of a profile are few, and their texts fit. -/
theorem loadProfile_short (txt : CStr) (pf : MsProfile) (hload : loadProfile txt = some pf) :
    pf.modules.length ≤ msMaxModules ∧ ∀ mod ∈ pf.modules, ListedShort mod := by
  unfold loadProfile at hload
  rw [Option.bind_eq_some_iff] at hload
  obtain ⟨root, -, hload⟩ := hload
  dsimp only at hload
  split at hload
  · cases hload
  · cases hload
    constructor
    · rw [List.length_map, List.length_take]
      exact min_le_left _ _
    · intro mod hmod
      obtain ⟨mo, -, rfl⟩ := List.mem_map.mp hmod
      exact ⟨objStr_length _ _ _ (by decide), objStr_length _ _ _ (by decide),
        objLong_fits _ _ _ (by decide)⟩

/-- The profile's list goes through: each of its modules does. -/
def RosterCarried (pf : MsProfile) : Prop := ∀ mod ∈ pf.modules, ListedPlain mod

/-- The list of the registry comes back whole. -/
structure Listed (pf : MsProfile) : Prop where
  count : pf.modules.length ≤ msMaxModules
  short : ∀ mod ∈ pf.modules, ListedShort mod
  plain : ∀ mod ∈ pf.modules, ListedPlain mod

/-- INTERNAL: a list that tells the same comes back whole, too. -/
theorem listed_of_roster (pf pf' : MsProfile) (h : Listed pf)
    (hsame : pf'.modules.map rosterOf = pf.modules.map rosterOf) : Listed pf' where
  count := by
    have hlen := congrArg List.length hsame
    rw [List.length_map, List.length_map] at hlen
    exact hlen ▸ h.count
  short := by
    have hall := forall_of_roster
      (fun r => r.1.length < 8 ∧ r.2.2.length < 8 ∧ FitsInt64 r.2.1) pf pf' hsame
      fun mod hmod =>
        ⟨(h.short mod hmod).moduleType, (h.short mod hmod).serviceModuleType,
          (h.short mod hmod).moduleRefIndex⟩
    exact fun mod hmod => ⟨(hall mod hmod).1, (hall mod hmod).2.1, (hall mod hmod).2.2⟩
  plain := by
    have hall := forall_of_roster
      (fun r => Plain r.1 ∧ Plain r.2.2 ∧ 0 ≤ r.2.1 ∧ r.2.1 < 2 ^ 32) pf pf' hsame
      fun mod hmod =>
        ⟨(h.plain mod hmod).moduleType, (h.plain mod hmod).serviceModuleType,
          (h.plain mod hmod).moduleRefIndex⟩
    exact fun mod hmod => ⟨(hall mod hmod).1, (hall mod hmod).2.1, (hall mod hmod).2.2⟩

/-! ## The answers -/

/-- The distinct indexes of the modules of a type in an addressing table. -/
def tableIndexes (addrs : List BmAddr) (type : HesModuleType) : Finset ℕ :=
  ((addrs.filter fun a => a.moduleType = type).map BmAddr.moduleRefIndex).toFinset

/-- The inventory that the addressing table tells: this module is a service module, too. -/
def tableInventory (addrs : List BmAddr) : IdInventory where
  hansNumber := (tableIndexes addrs .hi).card
  wansNumber := (tableIndexes addrs .wi).card
  serviceModulesNumber := 1 + (tableIndexes addrs .sm).card
  bindingMaps := [⟨lit "sm", 1, 0, []⟩]

/-- The modules of a type that the profile declares. -/
def declared (pf : MsProfile) (type : String) : List MsModule :=
  pf.modules.filter fun mod => mod.moduleType = lit type

/-- The inventory that the profile declares: every service module hosts a binding map. -/
def profileInventory (pf : MsProfile) : IdInventory where
  hansNumber := (declared pf "hi").length
  wansNumber := (declared pf "wi").length
  serviceModulesNumber := (declared pf "sm").length
  bindingMaps := (declared pf "sm").map fun mod => ⟨lit "sm", mod.moduleRefIndex.toNat, 0, []⟩

/-- INTERNAL: the row of a service module. -/
theorem smRow_eq (mi : ℕ) : smRow mi = ⟨lit "sm", mi, 0, []⟩ := rfl

/-- INTERNAL: **the loop over `seen`** keeps each index once. -/
theorem countDistinctModules_eq (addrs : List BmAddr) (type : HesModuleType) :
    countDistinctModules addrs type = (tableIndexes addrs type).card := by
  have hloop : ∀ (as : List BmAddr) (seen : List ℕ), seen.Nodup →
      (as.foldl (fun seen a =>
        if a.moduleRefIndex ∈ seen then seen else seen ++ [a.moduleRefIndex]) seen).length =
      (seen.toFinset ∪ (as.map BmAddr.moduleRefIndex).toFinset).card := by
    intro as
    induction as with
    | nil =>
      intro seen hseen
      rw [List.foldl_nil, List.map_nil, List.toFinset_nil, Finset.union_empty,
        List.toFinset_card_of_nodup hseen]
    | cons a as ih =>
      intro seen hseen
      rw [List.foldl_cons, List.map_cons, List.toFinset_cons]
      by_cases hmem : a.moduleRefIndex ∈ seen
      · rw [if_pos hmem, ih seen hseen, Finset.union_insert,
          Finset.insert_eq_of_mem (Finset.mem_union_left _ (List.mem_toFinset.mpr hmem))]
      · have hnext : (seen ++ [a.moduleRefIndex]).Nodup := by
          rw [List.nodup_append]
          refine ⟨hseen, List.nodup_singleton _, ?_⟩
          rintro b hb c hc rfl
          rw [List.mem_singleton.mp hc] at hb
          exact hmem hb
        rw [if_neg hmem, ih _ hnext]
        congr 1
        ext b
        simp only [Finset.mem_union, Finset.mem_insert, List.mem_toFinset, List.mem_append,
          List.mem_singleton, or_assoc]
  unfold countDistinctModules tableIndexes
  rw [hloop _ [] List.nodup_nil, List.toFinset_nil, Finset.empty_union]

/-- INTERNAL: before a list was heard the addressing table is counted. -/
theorem coreGatewayInventory_table (inv : CoreInventory) (h : inv.haveModules = false) :
    coreGatewayInventory inv = tableInventory inv.addrs := by
  unfold coreGatewayInventory tableInventory
  rw [if_neg (by simp [h]), countDistinctModules_eq, countDistinctModules_eq,
    countDistinctModules_eq]
  rfl

/-- INTERNAL: **the loop over the modules** counts each type, and has a row for every service
module as far as there is room. -/
theorem countModules_eq (mods : List MsModule) (out : IdInventory)
    (hroom : out.bindingMaps.length + mods.length ≤ idMaxBindingMaps) :
    (mods.map listedEntry).foldl countModule out =
      { hansNumber := out.hansNumber + (declared ⟨mods⟩ "hi").length
        wansNumber := out.wansNumber + (declared ⟨mods⟩ "wi").length
        serviceModulesNumber := out.serviceModulesNumber + (declared ⟨mods⟩ "sm").length
        bindingMaps := out.bindingMaps ++
          (declared ⟨mods⟩ "sm").map fun mod => ⟨lit "sm", mod.moduleRefIndex.toNat, 0, []⟩ } := by
  have hhw : lit "hi" ≠ lit "wi" := by decide
  have hhs : lit "hi" ≠ lit "sm" := by decide
  have hws : lit "wi" ≠ lit "sm" := by decide
  induction mods generalizing out with
  | nil => simp [declared]
  | cons mod rest ih =>
    rw [List.length_cons] at hroom
    rw [List.map_cons, List.foldl_cons]
    unfold declared at ih ⊢
    by_cases hhi : mod.moduleType = lit "hi"
    · rw [ih]
      · simp [countModule, listedEntry, hhi, hhw, hhs]
        omega
      · simp only [countModule, listedEntry, hhi, if_true]
        omega
    · by_cases hwi : mod.moduleType = lit "wi"
      · rw [ih]
        · simp [countModule, listedEntry, hwi, hhw.symm, hws]
          omega
        · simp only [countModule, listedEntry, hwi, hhw.symm, if_true, if_false]
          omega
      · by_cases hsm : mod.moduleType = lit "sm"
        · have hstep : countModule out (listedEntry mod) =
              { out with
                serviceModulesNumber := out.serviceModulesNumber + 1
                bindingMaps := out.bindingMaps ++ [⟨lit "sm", mod.moduleRefIndex.toNat, 0, []⟩] } := by
            have hlt : out.bindingMaps.length < idMaxBindingMaps := by omega
            simp only [countModule, listedEntry, hsm, hhs.symm, hws.symm, if_true, if_false, hlt,
              smRow_eq]
          rw [hstep, ih]
          · simp [hsm, hhs.symm, hws.symm]
            omega
          · simp only [List.length_append, List.length_singleton]
            omega
        · have hstep : countModule out (listedEntry mod) = out := by
            simp only [countModule, listedEntry, hhi, hwi, hsm, if_false]
          rw [hstep, ih _ (by omega)]
          simp [hhi, hwi, hsm]

/-- INTERNAL: from then on the list is. -/
theorem coreGatewayInventory_list (inv : CoreInventory) (pf : MsProfile) (h : Listed pf)
    (hhave : inv.haveModules = true) (hmods : inv.modules = pf.modules.map listedEntry) :
    coreGatewayInventory inv = profileInventory pf := by
  have hroom : ([] : List IdBindingMap).length + pf.modules.length ≤ idMaxBindingMaps := by
    have := h.count
    unfold msMaxModules at this
    unfold idMaxBindingMaps
    rw [List.length_nil]
    omega
  have hcount := countModules_eq pf.modules {} hroom
  unfold coreGatewayInventory
  rw [if_pos hhave, hmods, hcount]
  unfold profileInventory
  simp

/-- INTERNAL: the inventory is a matter of the roster. -/
theorem profileInventory_roster (pf pf' : MsProfile)
    (hsame : pf'.modules.map rosterOf = pf.modules.map rosterOf) :
    profileInventory pf' = profileInventory pf := by
  have hdeclared : ∀ type, (declared pf' type).map rosterOf = (declared pf type).map rosterOf := by
    intro type
    have hfilter : ∀ mods : List MsModule,
        (mods.filter fun mod => mod.moduleType = lit type).map rosterOf =
          (mods.map rosterOf).filter fun r => r.1 = lit type := by
      intro mods
      rw [List.filter_map]
      rfl
    unfold declared
    rw [hfilter, hfilter, hsame]
  have hlength : ∀ type, (declared pf' type).length = (declared pf type).length := by
    intro type
    have := congrArg List.length (hdeclared type)
    rwa [List.length_map, List.length_map] at this
  have hrows : ∀ mods : List MsModule,
      (mods.map fun mod => (⟨lit "sm", mod.moduleRefIndex.toNat, 0, []⟩ : IdBindingMap)) =
        (mods.map rosterOf).map fun r => ⟨lit "sm", r.2.1.toNat, 0, []⟩ := by
    intro mods
    rw [List.map_map]
    rfl
  unfold profileInventory
  rw [hlength, hlength, hlength, hrows, hrows, hdeclared]

/-! ## The discovery answer -/

/-- A row of the discovery answer. -/
def discoveryRow (m : IdBindingMap) : CStr :=
  lit "mt=" ++ m.moduleType ++ lit ",mi=" ++ fmtD m.moduleRefIndex ++ lit ",ni=" ++
    fmtD m.netRefIndex ++ lit ",ad=" ++ m.address

/-- INTERNAL: rows with room for them are all written. -/
theorem idDiscoveryRows_append (rows : List IdBindingMap) (buf : CStr) (hbuf : buf ≠ [])
    (hroom : buf.length + (rows.flatMap fun m => 59 :: discoveryRow m).length < hesPayloadMax) :
    idDiscoveryRows rows buf = buf ++ rows.flatMap fun m => 59 :: discoveryRow m := by
  induction rows generalizing buf with
  | nil => simp [idDiscoveryRows]
  | cons m rest ih =>
    have hrow : (if buf = [] then [] else lit ";") ++ lit "mt=" ++ m.moduleType ++ lit ",mi=" ++
        fmtD m.moduleRefIndex ++ lit ",ni=" ++ fmtD m.netRefIndex ++ lit ",ad=" ++ m.address =
        59 :: discoveryRow m := by
      rw [if_neg hbuf]
      unfold discoveryRow
      simp [lit]
    rw [List.flatMap_cons, List.length_append] at hroom
    unfold idDiscoveryRows
    dsimp only
    rw [hrow, if_neg (by omega), ih _ (by simp [hbuf])]
    · rw [List.flatMap_cons, List.append_assoc]
    · rw [List.length_append]
      omega

/-- INTERNAL: **the discovery answer is whole**, where the rows are those of service modules. -/
theorem idDiscoveryOnGet_whole (inv : IdInventory)
    (hcount : inv.bindingMaps.length ≤ idMaxBindingMaps)
    (hrows : ∀ m ∈ inv.bindingMaps, (discoveryRow m).length ≤ 40) :
    idDiscoveryOnGet inv = joined 59 (inv.bindingMaps.map discoveryRow) := by
  unfold idDiscoveryOnGet
  rw [List.take_of_length_le hcount]
  cases hmaps : inv.bindingMaps with
  | nil => rfl
  | cons m rest =>
    rw [hmaps] at hcount hrows
    rw [List.length_cons] at hcount
    unfold idMaxBindingMaps at hcount
    have hhead := hrows m List.mem_cons_self
    have hrest := length_flatMap_le (fun m => 59 :: discoveryRow m) rest 41 (by
      intro m' hm'
      have := hrows m' (List.mem_cons_of_mem _ hm')
      rw [List.length_cons]
      omega)
    have hne : discoveryRow m ≠ [] := by
      unfold discoveryRow
      simp [lit]
    have hfirst : (if ([] : CStr) = [] then [] else lit ";") ++ lit "mt=" ++ m.moduleType ++
        lit ",mi=" ++ fmtD m.moduleRefIndex ++ lit ",ni=" ++ fmtD m.netRefIndex ++ lit ",ad=" ++
        m.address = discoveryRow m := by
      rw [if_pos rfl]
      rfl
    unfold idDiscoveryRows
    dsimp only
    rw [hfirst, if_neg (by unfold hesPayloadMax; rw [List.length_nil]; omega), List.nil_append,
      idDiscoveryRows_append rest _ hne (by unfold hesPayloadMax; omega), List.map_cons,
      joined_cons, List.flatMap_map]

/-- INTERNAL: a row takes 40 characters at most. -/
theorem discoveryRow_length (mi : ℕ) (h : mi < 2 ^ 32) :
    (discoveryRow ⟨lit "sm", mi, 0, []⟩).length ≤ 40 := by
  have hmi := fmtD_length (mi : ℤ) (by unfold FitsInt64; omega)
  have h1 : (lit "mt=" ++ lit "sm" ++ lit ",mi=").length = 9 := by decide +kernel
  have h2 : (lit ",ni=" ++ fmtD ((0 : ℕ) : ℤ) ++ lit ",ad=").length = 9 := by decide +kernel
  unfold discoveryRow
  simp only [List.length_append, List.length_nil] at h1 h2 ⊢
  omega

/-! ## The steps of a run -/

/-- A refresh had the socket opened. -/
def Opened (steps : List InventoryStep) : Prop := ∃ ends, .refresh true ends ∈ steps

/-- The last list was heard right behind the first of the steps: a refresh was answered there,
over a socket that was opened, and none was answered behind. -/
def LastHeard (steps before : List InventoryStep) : Prop :=
  ∃ opens after, steps = before ++ .refresh opens .answered :: after ∧
    (opens = true ∨ Opened before) ∧ ∀ o, .refresh o .answered ∉ after

/-- A list was heard. -/
def ListHeard (steps : List InventoryStep) : Prop := ∃ before, LastHeard steps before

/-- INTERNAL: the list is opened by a refresh that gets so far. -/
theorem opened_append (steps : List InventoryStep) (step : InventoryStep) :
    Opened (steps ++ [step]) ↔ Opened steps ∨ ∃ ends, step = .refresh true ends := by
  unfold Opened
  constructor
  · rintro ⟨ends, hmem⟩
    rcases List.mem_append.mp hmem with hmem | hmem
    · exact Or.inl ⟨ends, hmem⟩
    · exact Or.inr ⟨ends, (List.mem_singleton.mp hmem).symm⟩
  · rintro (⟨ends, hmem⟩ | ⟨ends, rfl⟩)
    · exact ⟨ends, List.mem_append_left _ hmem⟩
    · exact ⟨ends, List.mem_append_right _ List.mem_cons_self⟩

/-- INTERNAL: what was heard was opened. -/
theorem LastHeard.opened {steps before : List InventoryStep} (h : LastHeard steps before) :
    Opened steps := by
  obtain ⟨opens, after, rfl, hopen, -⟩ := h
  rcases hopen with rfl | ⟨ends, hmem⟩
  · exact ⟨.answered, List.mem_append_right _ List.mem_cons_self⟩
  · exact ⟨ends, List.mem_append_left _ hmem⟩

/-- INTERNAL: **one more step** is the one at which the list is heard, or leaves that where it
was. -/
theorem lastHeard_append (steps before : List InventoryStep) (step : InventoryStep) :
    LastHeard (steps ++ [step]) before ↔
      (before = steps ∧ ∃ opens, step = .refresh opens .answered ∧ (opens = true ∨ Opened steps)) ∨
      (LastHeard steps before ∧ ∀ o, step ≠ .refresh o .answered) := by
  constructor
  · rintro ⟨opens, after, heq, hopen, hlast⟩
    rcases List.eq_nil_or_concat after with rfl | ⟨after', last, rfl⟩
    · obtain ⟨rfl, hstep⟩ := List.append_inj' heq rfl
      exact Or.inl ⟨rfl, opens, List.head_eq_of_cons_eq hstep, hopen⟩
    · rw [List.concat_eq_append, ← List.cons_append, ← List.append_assoc] at heq
      obtain ⟨rfl, hstep⟩ := List.append_inj' heq rfl
      rw [List.head_eq_of_cons_eq hstep]
      refine Or.inr ⟨⟨opens, after', rfl, hopen, fun o hmem => hlast o ?_⟩, fun o heq => hlast o ?_⟩
      · rw [List.concat_eq_append]
        exact List.mem_append_left _ hmem
      · rw [List.concat_eq_append, heq]
        exact List.mem_append_right _ List.mem_cons_self
  · rintro (⟨rfl, opens, rfl, hopen⟩ | ⟨⟨opens, after, rfl, hopen, hlast⟩, hstep⟩)
    · exact ⟨opens, [], rfl, hopen, fun o => List.not_mem_nil⟩
    · refine ⟨opens, after ++ [step], by simp, hopen, fun o hmem => ?_⟩
      rcases List.mem_append.mp hmem with hmem | hmem
      · exact hlast o hmem
      · exact hstep o (List.mem_singleton.mp hmem).symm

/-- INTERNAL: the service answers the core's request with its list, and stays as it is. -/
theorem serveRequest_modules (pf : MsProfile) :
    serveRequest pf modulesRequest = ⟨pf, [], buildModulesList pf⟩ := by
  have htext : receivedText msMaxReqBufSize modulesRequest = modulesRequest := by decide +kernel
  have hcmd : (loads modulesRequest).map (fun root => objStr root (lit "cmd") maxCmdSize) =
      some (lit "modules") := by decide +kernel
  unfold serveRequest
  rw [htext]
  obtain ⟨root, hroot, hmodules⟩ := Option.map_eq_some_iff.mp hcmd
  unfold handleRequest
  rw [hroot]
  dsimp only
  rw [if_pos hmodules]

/-- INTERNAL: **a refresh** of a core that has a service to ask. -/
theorem coreInventoryRefresh_eq (opens : Bool) (ends : Exchange) (pf : MsProfile)
    (inv : CoreInventory) (h : Listed pf) (hconf : inv.configured = true) :
    coreInventoryRefresh opens ends pf inv =
      (pf, if inv.mregOpen = true ∨ opens = true then
        (if ends = .answered then
          { inv with mregOpen := true, haveModules := true, modules := pf.modules.map listedEntry }
        else { inv with mregOpen := true })
      else inv) := by
  have hlist := hesMregQueryModules_list pf h.count h.short h.plain
  unfold coreInventoryRefresh
  rw [hconf]
  by_cases hopen : inv.mregOpen = true ∨ opens = true
  · have hgo : (!inv.mregOpen && !opens) = false := by
      rcases hopen with hopen | hopen <;> rw [hopen] <;> simp
    rw [if_pos hopen, hgo]
    unfold reqReply
    cases ends with
    | answered => simp [serveRequest_modules, hlist]
    | unanswered => simp [serveRequest_modules, hesMregQueryModules]
    | unsent => simp [hesMregQueryModules]
  · rw [not_or, Bool.not_eq_true, Bool.not_eq_true] at hopen
    rw [hopen.1, hopen.2]
    simp

/-- What is known behind the steps: the roster is that of the profile, and the core has what it
heard last. -/
structure Tracks (pf : MsProfile) (inv : CoreInventory) (steps : List InventoryStep) : Prop where
  roster : (inventoryRun steps (pf, inv)).1.modules.map rosterOf = pf.modules.map rosterOf
  addrs : (inventoryRun steps (pf, inv)).2.addrs = inv.addrs
  url : (inventoryRun steps (pf, inv)).2.svcRepUrl = inv.svcRepUrl
  opened : (inventoryRun steps (pf, inv)).2.mregOpen = true ↔ Opened steps
  unheard : ¬ListHeard steps → (inventoryRun steps (pf, inv)).2.haveModules = false
  heard : ∀ before, LastHeard steps before →
    (inventoryRun steps (pf, inv)).2.haveModules = true ∧
      (inventoryRun steps (pf, inv)).2.modules =
        (inventoryRun before (pf, inv)).1.modules.map listedEntry

/-- INTERNAL: a run goes on by a step. -/
theorem inventoryRun_append (steps : List InventoryStep) (step : InventoryStep)
    (s : MsProfile × CoreInventory) :
    inventoryRun (steps ++ [step]) s = inventoryStep (inventoryRun steps s) step := by
  unfold inventoryRun
  rw [List.foldl_append, List.foldl_cons, List.foldl_nil]

/-- INTERNAL: **one step more** keeps track. -/
theorem Tracks.step {pf : MsProfile} {inv : CoreInventory} {steps : List InventoryStep}
    (h : Tracks pf inv steps) (hlisted : Listed pf) (hconf : inv.configured = true)
    (step : InventoryStep) : Tracks pf inv (steps ++ [step]) := by
  have hconf' : (inventoryRun steps (pf, inv)).2.configured = true := by
    unfold CoreInventory.configured at hconf ⊢
    rw [h.url]
    exact hconf
  cases step with
  | served bytes =>
    have hquiet : ∀ before, LastHeard (steps ++ [.served bytes]) before ↔ LastHeard steps before := by
      intro before
      rw [lastHeard_append]
      simp
    constructor
    · rw [inventoryRun_append]
      exact (serveRequest_roster _ bytes).trans h.roster
    · rw [inventoryRun_append]
      exact h.addrs
    · rw [inventoryRun_append]
      exact h.url
    · rw [inventoryRun_append, opened_append]
      exact h.opened.trans (by simp)
    · rw [inventoryRun_append]
      exact fun hno => h.unheard fun ⟨before, hlast⟩ => hno ⟨before, (hquiet before).mpr hlast⟩
    · intro before hlast
      rw [inventoryRun_append]
      exact h.heard before ((hquiet before).mp hlast)
  | refresh opens ends =>
    have hrefresh := coreInventoryRefresh_eq opens ends (inventoryRun steps (pf, inv)).1
      (inventoryRun steps (pf, inv)).2 (listed_of_roster _ _ hlisted h.roster) hconf'
    have hrun : inventoryRun (steps ++ [.refresh opens ends]) (pf, inv) = _ :=
      (inventoryRun_append steps _ _).trans hrefresh
    have hiff : (inventoryRun steps (pf, inv)).2.mregOpen = true ∨ opens = true ↔
        Opened steps ∨ opens = true := or_congr_left h.opened
    by_cases hopen : Opened steps ∨ opens = true
    · rw [if_pos (hiff.mpr hopen)] at hrun
      by_cases hends : ends = .answered
      · subst hends
        rw [if_pos rfl] at hrun
        constructor
        · rw [hrun]
          exact h.roster
        · rw [hrun]
          exact h.addrs
        · rw [hrun]
          exact h.url
        · rw [hrun, opened_append]
          simpa [eq_comm] using hopen
        · exact fun hno => absurd ⟨steps, (lastHeard_append _ _ _).mpr
            (Or.inl ⟨rfl, opens, rfl, hopen.symm⟩)⟩ hno
        · intro before hlast
          rw [lastHeard_append] at hlast
          rcases hlast with ⟨rfl, -⟩ | ⟨-, hnone⟩
          · rw [hrun]
            exact ⟨rfl, rfl⟩
          · exact absurd rfl (hnone opens)
      · rw [if_neg hends] at hrun
        have hquiet : ∀ before, LastHeard (steps ++ [.refresh opens ends]) before ↔
            LastHeard steps before := by
          intro before
          rw [lastHeard_append]
          simp [hends]
        constructor
        · rw [hrun]
          exact h.roster
        · rw [hrun]
          exact h.addrs
        · rw [hrun]
          exact h.url
        · rw [hrun, opened_append]
          simpa [eq_comm] using hopen
        · rw [hrun]
          exact fun hno => h.unheard fun ⟨before, hlast⟩ => hno ⟨before, (hquiet before).mpr hlast⟩
        · intro before hlast
          rw [hrun]
          exact h.heard before ((hquiet before).mp hlast)
    · rw [if_neg (mt hiff.mp hopen)] at hrun
      rw [not_or] at hopen
      -- The socket was never opened, so that nothing was heard and nothing is.
      have hnone : ∀ before, ¬LastHeard (steps ++ [.refresh opens ends]) before := by
        intro before hlast
        rcases (opened_append _ _).mp hlast.opened with hlast | ⟨ends', heq⟩
        · exact hopen.1 hlast
        · cases heq
          exact hopen.2 rfl
      constructor
      · rw [hrun]
        exact h.roster
      · rw [hrun]
        exact h.addrs
      · rw [hrun]
        exact h.url
      · rw [hrun, opened_append, h.opened]
        simp [hopen.2]
      · rw [hrun]
        exact fun _ => h.unheard fun ⟨before, hlast⟩ => hopen.1 hlast.opened
      · exact fun before hlast => absurd hlast (hnone before)

/-- INTERNAL: **every run** keeps track. -/
theorem tracks_run (pf : MsProfile) (addrs : List BmAddr) (url : CStr) (hurl : url ≠ [])
    (hlisted : Listed pf) (steps : List InventoryStep) :
    Tracks pf { addrs := addrs, svcRepUrl := some url } steps := by
  induction steps using List.reverseRecOn with
  | nil =>
    have hopened : ¬Opened [] := by
      rintro ⟨ends, hmem⟩
      cases hmem
    exact
      { roster := rfl
        addrs := rfl
        url := rfl
        opened := by
          constructor
          · intro h
            cases h
          · exact fun h => absurd h hopened
        unheard := fun _ => rfl
        heard := fun before hlast => absurd hlast.opened hopened }
  | append_singleton steps step ih =>
    apply ih.step hlisted
    unfold CoreInventory.configured
    exact decide_eq_true hurl

/-- **The inventory follows the profile**: in every run of the core beside the device service, with
requests of others and refreshes in any order, answered or not, the identification service tells
what the addressing table declares until a list was heard; from then on it counts the modules of
the profile, has a discovery row of each of its service modules, and keeps their presence as it was
when the last list was heard.
SRCLINE: modules/core/core.c:259-359, common/hes_mreg.c:285-330, services/id/id.c:590-617 -/
theorem inventory_follows_profile (txt : CStr) (pf : MsProfile) (hload : loadProfile txt = some pf)
    (hcarried : RosterCarried pf) (addrs : List BmAddr) (url : CStr) (hurl : url ≠ [])
    (steps : List InventoryStep) :
    let start : MsProfile × CoreInventory := (pf, { addrs := addrs, svcRepUrl := some url })
    let inv := (inventoryRun steps start).2
    (¬ListHeard steps → coreGatewayInventory inv = tableInventory addrs ∧
      idDiscoveryOnGet (coreGatewayInventory inv) = lit "mt=sm,mi=1,ni=0,ad=") ∧
    ∀ before, LastHeard steps before →
      inv.modules = (inventoryRun before start).1.modules.map listedEntry ∧
      coreGatewayInventory inv = profileInventory pf ∧
      idDiscoveryOnGet (coreGatewayInventory inv) =
        joined 59 ((profileInventory pf).bindingMaps.map discoveryRow) := by
  intro start inv
  obtain ⟨hcount, hshort⟩ := loadProfile_short txt pf hload
  have hlisted : Listed pf := ⟨hcount, hshort, hcarried⟩
  have htracks := tracks_run pf addrs url hurl hlisted steps
  constructor
  · intro hno
    have htable := coreGatewayInventory_table inv (htracks.unheard hno)
    rw [htracks.addrs] at htable
    refine ⟨htable, ?_⟩
    rw [htable]
    show idDiscoveryRows ([⟨lit "sm", 1, 0, []⟩].take idMaxBindingMaps) [] = _
    decide +kernel
  · intro before hlast
    obtain ⟨hhave, hmods⟩ := htracks.heard before hlast
    have hroster := (tracks_run pf addrs url hurl hlisted before).roster
    have hprofile : coreGatewayInventory inv = profileInventory pf := by
      rw [coreGatewayInventory_list inv _ (listed_of_roster _ _ hlisted hroster) hhave hmods]
      exact profileInventory_roster _ _ hroster
    refine ⟨hmods, hprofile, ?_⟩
    rw [hprofile]
    apply idDiscoveryOnGet_whole
    · show ((declared pf "sm").map _).length ≤ _
      have hfilter := List.length_filter_le (fun mod => mod.moduleType = lit "sm") pf.modules
      rw [List.length_map]
      unfold declared idMaxBindingMaps
      unfold msMaxModules at hcount
      omega
    · intro m hm
      obtain ⟨mod, hmod, rfl⟩ := List.mem_map.mp hm
      obtain ⟨hlo, hhi⟩ := (hcarried mod (List.mem_filter.mp hmod).1).moduleRefIndex
      exact discoveryRow_length _ (by omega)

/-- A profile of a service module and the interface module of a radio. -/
def homeProfile : CStr :=
  lit ("\x7b\"modules\":[\x7b\"moduleType\":\"sm\",\"moduleRefIndex\":2," ++
    "\"serviceModuleType\":\"id\"\x7d,\x7b\"moduleType\":\"hi\",\"moduleRefIndex\":1\x7d]\x7d")

/-- Its modules. -/
def homeModules : List MsModule :=
  [⟨lit "sm", 2, lit "id", [], []⟩, ⟨lit "hi", 1, [], [], []⟩]

/-- INTERNAL: the modules of the home are what its profile is loaded to. -/
theorem homeProfile_loaded : loadProfile homeProfile = some ⟨homeModules⟩ := by
  unfold homeProfile
  rw [lit_append, lit_ofList, lit_ofList]
  decide +kernel

/-- INTERNAL: they come through. -/
theorem homeModules_carried : RosterCarried ⟨homeModules⟩ := by
  have hplain : ∀ s ∈ [lit "sm", lit "hi", lit "id", []], Plain s := by
    intro s hs
    apply plain_of_check
    revert s
    decide +kernel
  intro mod hmod
  simp only [homeModules, List.mem_cons, List.not_mem_nil, or_false] at hmod
  rcases hmod with rfl | rfl
  · exact ⟨hplain _ (by simp), hplain _ (by simp), by decide⟩
  · exact ⟨hplain _ (by simp), hplain _ (by simp), by decide⟩

/-- Three refreshes, the first without a client and the last unanswered. -/
theorem inventory_follows_profile_home :
    idDiscoveryOnGet (coreGatewayInventory (inventoryRun
      [.refresh false .answered, .refresh true .answered, .refresh true .unanswered]
      (⟨homeModules⟩, { addrs := [], svcRepUrl := some (lit "ipc") })).2) =
      lit "mt=sm,mi=2,ni=0,ad=" := by
  have hfollows := inventory_follows_profile homeProfile ⟨homeModules⟩ homeProfile_loaded
    homeModules_carried [] (lit "ipc") (by decide)
    [.refresh false .answered, .refresh true .answered, .refresh true .unanswered]
  refine (hfollows.2 [.refresh false .answered]
    ⟨true, [.refresh true .unanswered], rfl, Or.inl rfl, by simp⟩).2.2.trans ?_
  decide +kernel

end OpenHes.Analysis
