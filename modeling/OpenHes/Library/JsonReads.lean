import OpenHes.Library.JsonText
import Mathlib.Data.List.Nodup

/-!
# Reading JSON values

Which value a list of tokens is read as, put together from the tokens of its members and
elements, and where the strings of a value come from: each is a string token.
-/

set_option autoImplicit false

namespace OpenHes.Library

namespace Json

/-! ## Values from tokens -/

/-- The tokens are read as the value, whatever follows them. -/
def Reads (depth : ℕ) (vs : List Token) (value : Json) : Prop :=
  ∀ ts, parseValue depth (vs ++ ts) = some (value, ts)

/-- A member's name with its tokens and its value. -/
structure Member where
  key : CStr
  ts : List Token
  value : Json

/-- The tokens of members, a comma between each two. -/
def membersTokens : List Member → List Token
  | [] => []
  | [m] => .string m.key :: .colon :: m.ts
  | m :: m' :: rest => .string m.key :: .colon :: (m.ts ++ .comma :: membersTokens (m' :: rest))

/-- The tokens of elements, a comma between each two. -/
def elementsTokens : List (List Token) → List Token
  | [] => []
  | [ts] => ts
  | ts :: ts' :: rest => ts ++ .comma :: elementsTokens (ts' :: rest)

/-- The object with the members. -/
def ofMembers (ms : List Member) : Json := .object (ms.map fun m => (m.key, m.value))

/-- INTERNAL: one string token is read as the string. -/
theorem reads_string (depth : ℕ) (s : CStr) : Reads (depth + 1) [.string s] (.string s) :=
  fun _ => rfl

/-- INTERNAL: one integer token is read as the integer. -/
theorem reads_integer (depth : ℕ) (n : ℤ) : Reads (depth + 1) [.integer n] (.integer n) :=
  fun _ => rfl

/-- INTERNAL: behind an opening brace the members are parsed. -/
theorem parseValue_object (depth : ℕ) (ts : List Token) (h : ts.head? ≠ some .closeBrace) :
    parseValue (depth + 1) (.openBrace :: ts) =
      (parseMembers (parseValue depth) ts.length ts).map fun p => (.object p.1, p.2) := by
  cases ts with
  | nil => rfl
  | cons t ts => cases t <;> first | rfl | exact absurd rfl h

/-- INTERNAL: behind an opening bracket the elements are parsed. -/
theorem parseValue_array (depth : ℕ) (ts : List Token) (h : ts.head? ≠ some .closeBracket) :
    parseValue (depth + 1) (.openBracket :: ts) =
      (parseElements (parseValue depth) ts.length ts).map fun p => (.array p.1, p.2) := by
  cases ts with
  | nil => rfl
  | cons t ts => cases t <;> first | rfl | exact absurd rfl h

/-- INTERNAL: the tokens of a value start with no closing bracket. -/
theorem Reads.start (depth : ℕ) (vs : List Token) (value : Json) (h : Reads depth vs value) :
    ∃ t us, vs = t :: us ∧ t ≠ .closeBracket := by
  cases depth with
  | zero => cases h []
  | succ depth =>
    cases vs with
    | nil => cases h []
    | cons t us =>
      refine ⟨t, us, rfl, ?_⟩
      rintro rfl
      cases h []

/-- INTERNAL: members are read back one by one. -/
theorem parseMembers_reads (depth : ℕ) (ms : List Member) (hne : ms ≠ [])
    (h : ∀ m ∈ ms, Reads depth m.ts m.value) (fuel : ℕ) (hfuel : ms.length ≤ fuel)
    (ts : List Token) :
    parseMembers (parseValue depth) fuel (membersTokens ms ++ .closeBrace :: ts) =
      some (ms.map fun m => (m.key, m.value), ts) := by
  induction ms generalizing fuel with
  | nil => exact absurd rfl hne
  | cons m ms ih =>
    obtain ⟨fuel, rfl⟩ : ∃ k, fuel = k + 1 := ⟨fuel - 1, by simp at hfuel; omega⟩
    cases ms with
    | nil =>
      have hvalue := h m (by simp) (.closeBrace :: ts)
      simp [membersTokens, parseMembers, hvalue]
    | cons m' rest =>
      have hvalue := h m (by simp) (.comma :: (membersTokens (m' :: rest) ++ .closeBrace :: ts))
      have hrest := ih (by simp) (fun r hr => h r (by simp [hr])) fuel (by simpa using hfuel)
      simp [membersTokens, parseMembers, hvalue, hrest]

/-- INTERNAL: so are elements. -/
theorem parseElements_reads (depth : ℕ) (es : List (List Token × Json)) (hne : es ≠ [])
    (h : ∀ e ∈ es, Reads depth e.1 e.2) (fuel : ℕ) (hfuel : es.length ≤ fuel) (ts : List Token) :
    parseElements (parseValue depth) fuel
        (elementsTokens (es.map Prod.fst) ++ .closeBracket :: ts) =
      some (es.map Prod.snd, ts) := by
  induction es generalizing fuel with
  | nil => exact absurd rfl hne
  | cons e es ih =>
    obtain ⟨fuel, rfl⟩ : ∃ k, fuel = k + 1 := ⟨fuel - 1, by simp at hfuel; omega⟩
    cases es with
    | nil =>
      have hvalue := h e (by simp) (.closeBracket :: ts)
      simp [elementsTokens, parseElements, hvalue]
    | cons e' rest =>
      have hvalue := h e (by simp)
        (.comma :: (elementsTokens ((e' :: rest).map Prod.fst) ++ .closeBracket :: ts))
      have hrest := ih (by simp) (fun r hr => h r (by simp [hr])) fuel (by simpa using hfuel)
      simp only [List.map_cons] at hvalue hrest
      simp [elementsTokens, parseElements, hvalue, hrest]

/-- INTERNAL: each member takes a token at least. -/
theorem length_membersTokens (ms : List Member) : ms.length ≤ (membersTokens ms).length := by
  fun_induction membersTokens ms with
  | case1 => simp
  | case2 m => simp
  | case3 m m' rest ih =>
    simp only [List.length_cons, List.length_append] at ih ⊢
    omega

/-- INTERNAL: so does each element. -/
theorem length_elementsTokens (es : List (List Token)) (h : ∀ ts ∈ es, ts ≠ []) :
    es.length ≤ (elementsTokens es).length := by
  fun_induction elementsTokens es with
  | case1 => simp
  | case2 ts =>
    have := List.length_pos_iff.mpr (h ts (by simp))
    simp only [List.length_singleton]
    omega
  | case3 ts ts' rest ih =>
    have := ih fun us hus => h us (by simp [hus])
    simp only [List.length_cons, List.length_append] at this ⊢
    omega

/-- INTERNAL: **an object** is read from its members. -/
theorem reads_object (depth : ℕ) (ms : List Member) (h : ∀ m ∈ ms, Reads depth m.ts m.value) :
    Reads (depth + 1) (.openBrace :: (membersTokens ms ++ [.closeBrace])) (ofMembers ms) := by
  intro ts
  by_cases hms : ms = []
  · subst hms
    rfl
  have htokens : Token.openBrace :: (membersTokens ms ++ [.closeBrace]) ++ ts =
      .openBrace :: (membersTokens ms ++ .closeBrace :: ts) := by simp
  have hhead : (membersTokens ms ++ .closeBrace :: ts).head? ≠ some .closeBrace := by
    match ms, hms with
    | [m], _ => simp [membersTokens]
    | m :: m' :: rest, _ => simp [membersTokens]
  have hfuel : ms.length ≤ (membersTokens ms ++ .closeBrace :: ts).length := by
    have := length_membersTokens ms
    rw [List.length_append]
    omega
  rw [htokens, parseValue_object depth _ hhead, parseMembers_reads depth ms hms h _ hfuel ts]
  rfl

/-- INTERNAL: **an array** is read from its elements. -/
theorem reads_array (depth : ℕ) (es : List (List Token × Json))
    (h : ∀ e ∈ es, Reads depth e.1 e.2) :
    Reads (depth + 1) (.openBracket :: (elementsTokens (es.map Prod.fst) ++ [.closeBracket]))
      (.array (es.map Prod.snd)) := by
  intro ts
  by_cases hes : es = []
  · subst hes
    rfl
  have htokens : Token.openBracket :: (elementsTokens (es.map Prod.fst) ++ [.closeBracket]) ++ ts =
      .openBracket :: (elementsTokens (es.map Prod.fst) ++ .closeBracket :: ts) := by simp
  have hstart : ∀ us ∈ es.map Prod.fst, ∃ t vs, us = t :: vs ∧ t ≠ .closeBracket := by
    intro us hus
    obtain ⟨e, he, rfl⟩ := List.mem_map.mp hus
    exact (h e he).start
  have hne : ∀ us ∈ es.map Prod.fst, us ≠ [] := by
    intro us hus
    obtain ⟨t, vs, rfl, -⟩ := hstart us hus
    exact List.cons_ne_nil t vs
  have hhead : (elementsTokens (es.map Prod.fst) ++ .closeBracket :: ts).head? ≠
      some .closeBracket := by
    have hmap : es.map Prod.fst ≠ [] := by simpa using hes
    generalize es.map Prod.fst = uss at hstart hmap
    match uss, hmap with
    | [us], _ =>
      obtain ⟨t, vs, rfl, ht⟩ := hstart us (by simp)
      simpa [elementsTokens] using ht
    | us :: us' :: rest, _ =>
      obtain ⟨t, vs, rfl, ht⟩ := hstart us (by simp)
      simpa [elementsTokens] using ht
  have hfuel : es.length ≤ (elementsTokens (es.map Prod.fst) ++ .closeBracket :: ts).length := by
    have := length_elementsTokens _ hne
    rw [List.length_map] at this
    rw [List.length_append]
    omega
  rw [htokens, parseValue_array depth _ hhead, parseElements_reads depth es hes h _ hfuel ts]
  rfl

/-- INTERNAL: **a text** whose tokens are read as an object is loaded as it. -/
theorem loads_of_reads (text : CStr) (us : List Token) (value : Json)
    (hutf8 : utf8CheckString text = true) (htokens : tokens text = some (.openBrace :: us))
    (h : Reads parserMaxDepth (.openBrace :: us) value) : loads text = some value := by
  have hvalue := h []
  rw [List.append_nil] at hvalue
  unfold loads
  rw [if_pos hutf8, htokens, Option.bind_some]
  simp [hvalue]

/-! ## The strings of a value -/

/-- The string is the value or stands in it. -/
inductive HasString : Json → CStr → Prop
  | here (s : CStr) : HasString (.string s) s
  | member (ms : List (CStr × Json)) (key : CStr) (value : Json) (s : CStr)
      (hmem : (key, value) ∈ ms) (hs : HasString value s) : HasString (.object ms) s
  | element (vs : List Json) (value : Json) (s : CStr) (hmem : value ∈ vs)
      (hs : HasString value s) : HasString (.array vs) s

/-- What a reader of values takes from the tokens: the strings of the value are among them,
and what it leaves is too. -/
def TakesStrings (read : List Token → Option (Json × List Token)) : Prop :=
  ∀ ts value rest, read ts = some (value, rest) →
    (∀ s, HasString value s → .string s ∈ ts) ∧ rest ⊆ ts

/-- INTERNAL: the strings of parsed members are among the tokens. -/
theorem parseMembers_strings (read : List Token → Option (Json × List Token))
    (h : TakesStrings read) (fuel : ℕ) (ts : List Token) (ms : List (CStr × Json))
    (rest : List Token) (hread : parseMembers read fuel ts = some (ms, rest)) :
    (∀ m ∈ ms, ∀ s, HasString m.2 s → .string s ∈ ts) ∧ rest ⊆ ts := by
  fun_induction parseMembers read fuel ts generalizing ms rest with
  | case1 fuel key ts ih =>
    simp only [Option.bind_eq_some_iff] at hread
    obtain ⟨⟨value, after⟩, hvalue, hread⟩ := hread
    obtain ⟨hstrings, hafter⟩ := h ts value after hvalue
    have hfirst : ∀ s, HasString value s → .string s ∈ Token.string key :: .colon :: ts := by
      intro s hs
      simp [hstrings s hs]
    dsimp only at hread
    split at hread
    next us =>
      simp only [Option.map_eq_some_iff, Prod.mk.injEq] at hread
      obtain ⟨⟨ms', rest'⟩, hrest, rfl, rfl⟩ := hread
      obtain ⟨hms, hsub⟩ := ih us ms' rest' hrest
      have hus : us ⊆ Token.string key :: .colon :: ts := by
        intro t ht
        have := hafter (List.mem_cons_of_mem _ ht)
        simp [this]
      refine ⟨fun m hm s hs => ?_, fun t ht => hus (hsub ht)⟩
      rcases List.mem_cons.mp hm with rfl | hm
      · exact hfirst s hs
      · exact hus (hms m hm s hs)
    next us =>
      cases hread
      refine ⟨fun m hm s hs => ?_, fun t ht => ?_⟩
      · rw [List.mem_singleton.mp hm] at hs
        exact hfirst s hs
      · have := hafter (List.mem_cons_of_mem _ ht)
        simp [this]
    · cases hread
  | case2 => cases hread

/-- INTERNAL: so are those of parsed elements. -/
theorem parseElements_strings (read : List Token → Option (Json × List Token))
    (h : TakesStrings read) (fuel : ℕ) (ts : List Token) (vs : List Json) (rest : List Token)
    (hread : parseElements read fuel ts = some (vs, rest)) :
    (∀ v ∈ vs, ∀ s, HasString v s → .string s ∈ ts) ∧ rest ⊆ ts := by
  fun_induction parseElements read fuel ts generalizing vs rest with
  | case1 => cases hread
  | case2 fuel ts ih =>
    simp only [Option.bind_eq_some_iff] at hread
    obtain ⟨⟨value, after⟩, hvalue, hread⟩ := hread
    obtain ⟨hstrings, hafter⟩ := h ts value after hvalue
    dsimp only at hread
    split at hread
    next us =>
      simp only [Option.map_eq_some_iff, Prod.mk.injEq] at hread
      obtain ⟨⟨vs', rest'⟩, hrest, rfl, rfl⟩ := hread
      obtain ⟨hvs, hsub⟩ := ih us vs' rest' hrest
      have hus : us ⊆ ts := fun t ht => hafter (List.mem_cons_of_mem _ ht)
      refine ⟨fun v hv s hs => ?_, fun t ht => hus (hsub ht)⟩
      rcases List.mem_cons.mp hv with rfl | hv
      · exact hstrings s hs
      · exact hus (hvs v hv s hs)
    next us =>
      cases hread
      refine ⟨fun v hv s hs => ?_, fun t ht => ?_⟩
      · rw [List.mem_singleton.mp hv] at hs
        exact hstrings s hs
      · exact hafter (List.mem_cons_of_mem _ ht)
    · cases hread

/-- INTERNAL: **the strings of a value** are tokens of its text. -/
theorem parseValue_strings (depth : ℕ) : TakesStrings (parseValue depth) := by
  induction depth with
  | zero =>
    intro ts value rest h
    cases h
  | succ depth ih =>
    intro ts value rest h
    cases ts with
    | nil => cases h
    | cons t ts =>
      have hscalar : ∀ v : Json, (∀ s, HasString v s → .string s = t) →
          some (v, ts) = some (value, rest) →
          (∀ s, HasString value s → .string s ∈ t :: ts) ∧ rest ⊆ t :: ts := by
        intro v hv heq
        cases heq
        refine ⟨fun s hs => ?_, List.subset_cons_self _ _⟩
        rw [hv s hs]
        exact List.mem_cons_self
      cases t with
      | string text => exact hscalar (.string text) (fun s hs => by cases hs; rfl) h
      | integer n => exact hscalar (.integer n) (fun s hs => by cases hs) h
      | real x => exact hscalar (.real x) (fun s hs => by cases hs) h
      | bool b => exact hscalar (.bool b) (fun s hs => by cases hs) h
      | null => exact hscalar .null (fun s hs => by cases hs) h
      | closeBrace => cases h
      | closeBracket => cases h
      | colon => cases h
      | comma => cases h
      | openBrace =>
        by_cases hhead : ts.head? = some .closeBrace
        · obtain ⟨us, rfl⟩ := List.head?_eq_some_iff.mp hhead
          cases h
          refine ⟨fun s hs => ?_, fun u hu => by simp [hu]⟩
          cases hs with
          | member _ key v _ hmem _ => simp at hmem
        · rw [parseValue_object depth ts hhead] at h
          simp only [Option.map_eq_some_iff, Prod.mk.injEq] at h
          obtain ⟨⟨ms, after⟩, hread, rfl, rfl⟩ := h
          obtain ⟨hms, hsub⟩ := parseMembers_strings _ ih _ _ _ _ hread
          refine ⟨fun s hs => ?_, fun u hu => List.mem_cons_of_mem _ (hsub hu)⟩
          cases hs with
          | member _ key v _ hmem hv => exact List.mem_cons_of_mem _ (hms (key, v) hmem s hv)
      | openBracket =>
        by_cases hhead : ts.head? = some .closeBracket
        · obtain ⟨us, rfl⟩ := List.head?_eq_some_iff.mp hhead
          cases h
          refine ⟨fun s hs => ?_, fun u hu => by simp [hu]⟩
          cases hs with
          | element _ v _ hmem _ => simp at hmem
        · rw [parseValue_array depth ts hhead] at h
          simp only [Option.map_eq_some_iff, Prod.mk.injEq] at h
          obtain ⟨⟨vs, after⟩, hread, rfl, rfl⟩ := h
          obtain ⟨hvs, hsub⟩ := parseElements_strings _ ih _ _ _ _ hread
          refine ⟨fun s hs => ?_, fun u hu => List.mem_cons_of_mem _ (hsub hu)⟩
          cases hs with
          | element _ v _ hmem hv => exact List.mem_cons_of_mem _ (hvs v hmem s hv)

/-- INTERNAL: **what is loaded** is UTF-8, has tokens, and holds only strings of them. -/
theorem loads_strings (text : CStr) (value : Json) (h : loads text = some value) :
    utf8CheckString text = true ∧ ∃ ts, tokens text = some ts ∧
      ∀ s, HasString value s → .string s ∈ ts := by
  unfold loads at h
  split at h
  next hutf8 =>
    simp only [Option.bind_eq_some_iff] at h
    obtain ⟨ts, hts, h⟩ := h
    refine ⟨hutf8, ts, hts, ?_⟩
    have hparse : ∃ rest, parseValue parserMaxDepth ts = some (value, rest) := by
      split at h
      · simp only [Option.bind_eq_some_iff] at h
        obtain ⟨⟨v, rest⟩, hparse, h⟩ := h
        split at h
        · cases h
          exact ⟨rest, hparse⟩
        · cases h
      · simp only [Option.bind_eq_some_iff] at h
        obtain ⟨⟨v, rest⟩, hparse, h⟩ := h
        split at h
        · cases h
          exact ⟨rest, hparse⟩
        · cases h
      · cases h
    obtain ⟨rest, hparse⟩ := hparse
    exact (parseValue_strings parserMaxDepth ts value rest hparse).1
  · cases h

/-- INTERNAL: a string member is a string of the object. -/
theorem hasString_of_get (o value : Json) (key : CStr) (s : CStr) (h : o.get key = some value)
    (hs : HasString value s) : HasString o s := by
  cases o with
  | object ms =>
    simp only [get, Option.map_eq_some_iff] at h
    obtain ⟨⟨k, v⟩, hfind, rfl⟩ := h
    have hmem := List.mem_of_find?_eq_some hfind
    exact HasString.member ms k v s (List.mem_reverse.mp hmem) hs
  | _ => cases h

/-! ## Members by name -/

/-- INTERNAL: a member is found under its name, where no two have the same. -/
theorem get_ofMembers (ms : List Member) (hnodup : (ms.map Member.key).Nodup) (m : Member)
    (hm : m ∈ ms) : (ofMembers ms).get m.key = some m.value := by
  have hunique : ∀ m' ∈ ms, m'.key = m.key → m' = m := by
    intro m' hm' hkey
    exact List.inj_on_of_nodup_map hnodup hm' hm hkey
  have hfind : ((ms.map fun m => (m.key, m.value)).reverse.find? fun p => p.1 = m.key) =
      some (m.key, m.value) := by
    cases hres : (ms.map fun m => (m.key, m.value)).reverse.find? fun p => p.1 = m.key with
    | none =>
      rw [List.find?_eq_none] at hres
      have := hres (m.key, m.value) (by
        rw [List.mem_reverse, List.mem_map]
        exact ⟨m, hm, rfl⟩)
      simp at this
    | some p =>
      have hkey := List.find?_some hres
      have hmem := List.mem_of_find?_eq_some hres
      rw [List.mem_reverse, List.mem_map] at hmem
      obtain ⟨m', hm', rfl⟩ := hmem
      rw [hunique m' hm' (by simpa using hkey)]
  unfold ofMembers get
  simp only
  rw [hfind]
  rfl

/-- INTERNAL: a key that no member has is not found. -/
theorem get_ofMembers_none (ms : List Member) (key : CStr) (h : key ∉ ms.map Member.key) :
    (ofMembers ms).get key = none := by
  unfold ofMembers get
  simp only [Option.map_eq_none_iff, List.find?_eq_none, List.mem_reverse, List.mem_map]
  rintro p ⟨m, hm, rfl⟩ hkey
  exact h (List.mem_map.mpr ⟨m, hm, by simpa using hkey⟩)

end Json

end OpenHes.Library
