import HoneypotAudit.Proofs.Json.Tokens

/-!
# Reading JSON in front of other text

`ValueStep`, `ItemsStep` and `MembersStep` say what one step of the reader can come to.  From them
follow two facts on a text with a tail.

* What is read of the text alone is read in front of the tail too, with any more fuel and room
  (`read_append`); so a text is read in one way at most (`readValue_unique`).
* If the tail is no continuation of a list or an object, the reader does not get into it
  (`read_stops`).
-/

namespace HoneypotAudit.Json

open HoneypotAudit.Text HoneypotAudit.Outcome

/-! ## Steps -/

section Steps

variable (named : List Nat → String) (fuel : Nat)

/-- What reading a value can come to. -/
inductive ValueStep : Nat → List Char → Json → List Char → Prop
  | text {room : Nat} {body rest : List Char} {codes : List Nat}
      (h : readText (body.length + 1) body = .ok (codes, rest)) :
      ValueStep room ('"' :: body) (ofCodes codes) rest
  | emptyList {room : Nat} {body rest : List Char} (h : skipGap body = ']' :: rest) :
      ValueStep (room + 1) ('[' :: body) (.arr []) rest
  | list {room : Nat} {body rest : List Char} {items : List Json}
      (hhead : ∀ rest', skipGap body ≠ ']' :: rest')
      (h : readItems named fuel room (skipGap body) = .ok (items, rest)) :
      ValueStep (room + 1) ('[' :: body) (.arr items) rest
  | emptyObject {room : Nat} {body rest : List Char} (h : skipGap body = '}' :: rest) :
      ValueStep (room + 1) ('{' :: body) (.obj []) rest
  | object {room : Nat} {body rest : List Char} {members : Members}
      (hhead : ∀ rest', skipGap body ≠ '}' :: rest')
      (h : readMembers named fuel room (skipGap body) = .ok (members, rest)) :
      ValueStep (room + 1) ('{' :: body) (.obj (ofPairs members)) rest
  | scalar {room : Nat} {cs rest : List Char} {v : Json}
      (hhead : ∀ c ∈ cs.head?, c ≠ '"' ∧ c ≠ '[' ∧ c ≠ '{') (h : readScalar cs = .ok (v, rest)) :
      ValueStep room cs v rest

/-- What reading items can come to. -/
inductive ItemsStep (room : Nat) (cs : List Char) : List Json → List Char → Prop
  | last {v : Json} {behind rest : List Char} (h : readValue named fuel room cs = .ok (v, behind))
      (hend : skipGap behind = ']' :: rest) : ItemsStep room cs [v] rest
  | more {v : Json} {items : List Json} {behind body rest : List Char}
      (h : readValue named fuel room cs = .ok (v, behind)) (hcomma : skipGap behind = ',' :: body)
      (hmore : readItems named fuel room (skipGap body) = .ok (items, rest)) :
      ItemsStep room cs (v :: items) rest

/-- A member of an object is read up to what is behind its value. -/
inductive MemberStep (room : Nat) : List Char → String × Json → List Char → Prop
  | intro {body behindName value behind : List Char} {codes : List Nat} {v : Json}
      (hname : readText (body.length + 1) body = .ok (codes, behindName))
      (hcolon : skipGap behindName = ':' :: value)
      (hvalue : readValue named fuel room (skipGap value) = .ok (v, behind)) :
      MemberStep room ('"' :: body) (named codes, v) behind

/-- What reading members can come to. -/
inductive MembersStep (room : Nat) (cs : List Char) : Members → List Char → Prop
  | last {member : String × Json} {behind rest : List Char}
      (h : MemberStep named fuel room cs member behind) (hend : skipGap behind = '}' :: rest) :
      MembersStep room cs [member] rest
  | more {member : String × Json} {members : Members} {behind body rest : List Char}
      (h : MemberStep named fuel room cs member behind) (hcomma : skipGap behind = ',' :: body)
      (hmore : readMembers named fuel room (skipGap body) = .ok (members, rest)) :
      MembersStep room cs (member :: members) rest

variable {named fuel} {room : Nat} {cs rest : List Char}

lemma valueStep_of_readValue {v : Json}
    (h : readValue named (fuel + 1) room cs = .ok (v, rest)) :
    ValueStep named fuel room cs v rest := by
  unfold readValue at h
  split at h
  next =>
    obtain ⟨found, hfound, h⟩ := bind_eq_ok_iff.mp h
    cases h
    exact .text hfound
  next => cases h
  next => cases h
  next =>
    split at h
    next hend =>
      cases h
      exact .emptyList hend
    next hhead =>
      obtain ⟨found, hfound, h⟩ := bind_eq_ok_iff.mp h
      cases h
      exact .list hhead hfound
  next =>
    split at h
    next hend =>
      cases h
      exact .emptyObject hend
    next hhead =>
      obtain ⟨found, hfound, h⟩ := bind_eq_ok_iff.mp h
      cases h
      exact .object hhead hfound
  next hquote hlist hobject hlist' hobject' =>
    refine .scalar (fun c hc => ?_) h
    obtain ⟨body, rfl⟩ : ∃ body, cs = c :: body := List.head?_eq_some_iff.mp hc
    refine ⟨?_, ?_, ?_⟩
    · rintro rfl
      exact hquote _ rfl
    · rintro rfl
      cases room with
      | zero => exact hlist _ rfl rfl
      | succ room => exact hlist' _ _ rfl rfl
    · rintro rfl
      cases room with
      | zero => exact hobject _ rfl rfl
      | succ room => exact hobject' _ _ rfl rfl

lemma readValue_eq_ok_iff {v : Json} :
    readValue named (fuel + 1) room cs = .ok (v, rest) ↔ ValueStep named fuel room cs v rest := by
  refine ⟨valueStep_of_readValue, fun h => ?_⟩
  cases h with
  | text h => simp [readValue, h]
  | emptyList h => simp [readValue, h]
  | list hhead h => simp [readValue, h]
  | emptyObject h => simp [readValue, h]
  | object hhead h => simp [readValue, h]
  | scalar hhead h =>
    unfold readValue
    split
    next => exact absurd rfl (hhead _ rfl).1
    next => exact absurd rfl (hhead _ rfl).2.1
    next => exact absurd rfl (hhead _ rfl).2.2
    next => exact absurd rfl (hhead _ rfl).2.1
    next => exact absurd rfl (hhead _ rfl).2.2
    next => exact h

lemma readItems_eq_ok_iff {items : List Json} :
    readItems named (fuel + 1) room cs = .ok (items, rest) ↔
      ItemsStep named fuel room cs items rest := by
  rw [readItems, bind_eq_ok_iff]
  constructor
  · rintro ⟨⟨v, behind⟩, hv, h⟩
    simp only at h
    split at h
    next hend =>
      cases h
      exact .last hv hend
    next hcomma =>
      obtain ⟨⟨vs, rest'⟩, hmore, h⟩ := bind_eq_ok_iff.mp h
      cases h
      exact .more hv hcomma hmore
    next => cases h
  · intro h
    cases h with
    | last hv hend => exact ⟨_, hv, by simp [hend]⟩
    | more hv hcomma hmore => exact ⟨_, hv, by simp [hcomma, hmore]⟩

lemma readMembers_eq_ok_iff {members : Members} :
    readMembers named (fuel + 1) room cs = .ok (members, rest) ↔
      MembersStep named fuel room cs members rest := by
  constructor
  · intro h
    unfold readMembers at h
    split at h
    next body =>
      obtain ⟨⟨codes, behindName⟩, hname, h⟩ := bind_eq_ok_iff.mp h
      simp only at h
      split at h
      next value hcolon =>
        obtain ⟨⟨v, behind⟩, hvalue, h⟩ := bind_eq_ok_iff.mp h
        have hmember := MemberStep.intro hname hcolon hvalue
        simp only at h
        split at h
        next hend =>
          cases h
          exact .last hmember hend
        next hcomma =>
          obtain ⟨⟨ms, rest'⟩, hmore, h⟩ := bind_eq_ok_iff.mp h
          cases h
          exact .more hmember hcomma hmore
        next => cases h
      next => cases h
    next => cases h
  · intro h
    cases h with
    | last hmember hend =>
      cases hmember with
      | intro hname hcolon hvalue => simp [readMembers, hname, hcolon, hvalue, hend]
    | more hmember hcomma hmore =>
      cases hmember with
      | intro hname hcolon hvalue => simp [readMembers, hname, hcolon, hvalue, hcomma, hmore]

end Steps

/-! ## Text behind a value -/

section Behind

variable {named : List Nat → String} {tail : List Char}

lemma skipGap_append {cs : List Char} (h : skipGap cs ≠ []) :
    skipGap (cs ++ tail) = skipGap cs ++ tail := by
  rw [skipGap, List.dropWhile_append, ← skipGap, if_neg]
  rwa [List.isEmpty_iff]

lemma skipGap_append_cons {cs body : List Char} {c : Char} (h : skipGap cs = c :: body) :
    skipGap (cs ++ tail) = c :: (body ++ tail) := by
  rw [skipGap_append (by simp [h]), h, List.cons_append]

lemma skipGap_append_ne {cs : List Char} {c : Char} (hne : skipGap cs ≠ [])
    (hc : ∀ rest, skipGap cs ≠ c :: rest) (rest : List Char) :
    skipGap (cs ++ tail) ≠ c :: rest := by
  intro hcons
  obtain ⟨d, body, hbody⟩ := List.exists_cons_of_ne_nil hne
  rw [skipGap_append_cons hbody] at hcons
  cases hcons
  exact hc body hbody

section NotEmpty

variable {fuel room : Nat} {cs rest : List Char}

lemma ne_nil_of_readScalar {v : Json} (h : readScalar cs = .ok (v, rest)) : cs ≠ [] := by
  rintro rfl
  have hnone : readScalar [] = .error .malformed := rfl
  cases hnone.symm.trans h

lemma ne_nil_of_readValue {v : Json} (h : readValue named fuel room cs = .ok (v, rest)) :
    cs ≠ [] := by
  cases fuel with
  | zero => cases h
  | succ fuel =>
    cases readValue_eq_ok_iff.mp h with
    | scalar _ hscalar => exact ne_nil_of_readScalar hscalar
    | _ => exact List.cons_ne_nil _ _

lemma ne_nil_of_readItems {items : List Json}
    (h : readItems named fuel room cs = .ok (items, rest)) : cs ≠ [] := by
  cases fuel with
  | zero => cases h
  | succ fuel =>
    cases readItems_eq_ok_iff.mp h with
    | last hvalue _ => exact ne_nil_of_readValue hvalue
    | more hvalue _ _ => exact ne_nil_of_readValue hvalue

lemma ne_nil_of_readMembers {members : Members}
    (h : readMembers named fuel room cs = .ok (members, rest)) : cs ≠ [] := by
  rintro rfl
  cases fuel with
  | zero => cases h
  | succ fuel => cases h

end NotEmpty

lemma readText_body_append (h : IsTail tail) {body rest : List Char} {codes : List Nat}
    (htext : readText (body.length + 1) body = .ok (codes, rest)) :
    readText ((body ++ tail).length + 1) (body ++ tail) = .ok (codes, rest ++ tail) := by
  have hle : body.length + 1 ≤ (body ++ tail).length + 1 := by simp
  rw [readText_append h, readText_mono hle htext]
  rfl

/-- What is read with some fuel is read in front of a tail with other fuel too, with any more
room. -/
structure ReadsBefore (named : List Nat → String) (tail : List Char) (fuel fuel' : Nat) : Prop where
  value : ∀ {room room' : Nat} {cs rest : List Char} {v : Json}, room ≤ room' →
    readValue named fuel room cs = .ok (v, rest) →
    readValue named fuel' room' (cs ++ tail) = .ok (v, rest ++ tail)
  items : ∀ {room room' : Nat} {cs rest : List Char} {items : List Json}, room ≤ room' →
    readItems named fuel room cs = .ok (items, rest) →
    readItems named fuel' room' (cs ++ tail) = .ok (items, rest ++ tail)
  members : ∀ {room room' : Nat} {cs rest : List Char} {members : Members}, room ≤ room' →
    readMembers named fuel room cs = .ok (members, rest) →
    readMembers named fuel' room' (cs ++ tail) = .ok (members, rest ++ tail)

section Append

variable {fuel fuel' room room' : Nat} {cs rest : List Char}

lemma ReadsBefore.value_skipGap (ih : ReadsBefore named tail fuel fuel') (hroom : room ≤ room')
    {v : Json} (h : readValue named fuel room (skipGap cs) = .ok (v, rest)) :
    readValue named fuel' room' (skipGap (cs ++ tail)) = .ok (v, rest ++ tail) := by
  rw [skipGap_append (ne_nil_of_readValue h)]
  exact ih.value hroom h

lemma ReadsBefore.items_skipGap (ih : ReadsBefore named tail fuel fuel') (hroom : room ≤ room')
    {items : List Json} (h : readItems named fuel room (skipGap cs) = .ok (items, rest)) :
    readItems named fuel' room' (skipGap (cs ++ tail)) = .ok (items, rest ++ tail) := by
  rw [skipGap_append (ne_nil_of_readItems h)]
  exact ih.items hroom h

lemma ReadsBefore.members_skipGap (ih : ReadsBefore named tail fuel fuel') (hroom : room ≤ room')
    {members : Members} (h : readMembers named fuel room (skipGap cs) = .ok (members, rest)) :
    readMembers named fuel' room' (skipGap (cs ++ tail)) = .ok (members, rest ++ tail) := by
  rw [skipGap_append (ne_nil_of_readMembers h)]
  exact ih.members hroom h

/-! ### Steps in front of a tail -/

lemma ValueStep.append (h : IsTail tail) (ih : ReadsBefore named tail fuel fuel')
    (hroom : room ≤ room') {v : Json} (hstep : ValueStep named fuel room cs v rest) :
    ValueStep named fuel' room' (cs ++ tail) v (rest ++ tail) := by
  cases hstep with
  | text htext => exact .text (readText_body_append h htext)
  | emptyList hend =>
    obtain ⟨room', rfl⟩ : ∃ k, room' = k + 1 := ⟨room' - 1, by omega⟩
    exact .emptyList (skipGap_append_cons hend)
  | list hhead hitems =>
    obtain ⟨room', rfl⟩ : ∃ k, room' = k + 1 := ⟨room' - 1, by omega⟩
    exact .list (skipGap_append_ne (ne_nil_of_readItems hitems) hhead)
      (ih.items_skipGap (Nat.le_of_succ_le_succ hroom) hitems)
  | emptyObject hend =>
    obtain ⟨room', rfl⟩ : ∃ k, room' = k + 1 := ⟨room' - 1, by omega⟩
    exact .emptyObject (skipGap_append_cons hend)
  | object hhead hmembers =>
    obtain ⟨room', rfl⟩ : ∃ k, room' = k + 1 := ⟨room' - 1, by omega⟩
    exact .object (skipGap_append_ne (ne_nil_of_readMembers hmembers) hhead)
      (ih.members_skipGap (Nat.le_of_succ_le_succ hroom) hmembers)
  | scalar hhead hscalar =>
    obtain ⟨c, body, rfl⟩ := List.exists_cons_of_ne_nil (ne_nil_of_readScalar hscalar)
    refine .scalar hhead ?_
    rw [readScalar_append h, hscalar]
    rfl

lemma ItemsStep.append (ih : ReadsBefore named tail fuel fuel') (hroom : room ≤ room')
    {items : List Json} (hstep : ItemsStep named fuel room cs items rest) :
    ItemsStep named fuel' room' (cs ++ tail) items (rest ++ tail) := by
  cases hstep with
  | last hvalue hend => exact .last (ih.value hroom hvalue) (skipGap_append_cons hend)
  | more hvalue hcomma hmore =>
    exact .more (ih.value hroom hvalue) (skipGap_append_cons hcomma)
      (ih.items_skipGap hroom hmore)

lemma MemberStep.append (h : IsTail tail) (ih : ReadsBefore named tail fuel fuel')
    (hroom : room ≤ room') {member : String × Json}
    (hstep : MemberStep named fuel room cs member rest) :
    MemberStep named fuel' room' (cs ++ tail) member (rest ++ tail) := by
  obtain ⟨hname, hcolon, hvalue⟩ := hstep
  exact .intro (readText_body_append h hname) (skipGap_append_cons hcolon)
    (ih.value_skipGap hroom hvalue)

lemma MembersStep.append (h : IsTail tail) (ih : ReadsBefore named tail fuel fuel')
    (hroom : room ≤ room') {members : Members}
    (hstep : MembersStep named fuel room cs members rest) :
    MembersStep named fuel' room' (cs ++ tail) members (rest ++ tail) := by
  cases hstep with
  | last hmember hend => exact .last (hmember.append h ih hroom) (skipGap_append_cons hend)
  | more hmember hcomma hmore =>
    exact .more (hmember.append h ih hroom) (skipGap_append_cons hcomma)
      (ih.members_skipGap hroom hmore)

end Append

/-- **What is read of a text is read in front of a tail too**, with any more fuel and room. -/
theorem read_append (h : IsTail tail) {fuel fuel' : Nat} (hfuel : fuel ≤ fuel') :
    ReadsBefore named tail fuel fuel' := by
  induction fuel generalizing fuel' with
  | zero => exact ⟨nofun, nofun, nofun⟩
  | succ fuel ih =>
    obtain ⟨fuel', rfl⟩ : ∃ k, fuel' = k + 1 := ⟨fuel' - 1, by omega⟩
    have hless := ih (Nat.le_of_succ_le_succ hfuel)
    refine ⟨fun hroom hread => ?_, fun hroom hread => ?_, fun hroom hread => ?_⟩
    · rw [readValue_eq_ok_iff] at hread ⊢
      exact hread.append h hless hroom
    · rw [readItems_eq_ok_iff] at hread ⊢
      exact hread.append hless hroom
    · rw [readMembers_eq_ok_iff] at hread ⊢
      exact hread.append h hless hroom

/-- A text is read in one way at most, whatever fuel and room there is and whichever tail is behind
it. -/
theorem readValue_unique (h : IsTail tail) {fuel fuel' room room' : Nat}
    {cs rest rest' : List Char} {v v' : Json} (hv : readValue named fuel room cs = .ok (v, rest))
    (hv' : readValue named fuel' room' (cs ++ tail) = .ok (v', rest')) :
    v' = v ∧ rest' = rest ++ tail := by
  have hnil : IsTail [] := nofun
  have hread := (read_append h (Nat.le_max_left fuel fuel')).value (Nat.le_max_left room room') hv
  have hread' :=
    (read_append hnil (Nat.le_max_right fuel fuel')).value (Nat.le_max_right room room') hv'
  rw [List.append_nil, List.append_nil, hread] at hread'
  cases hread'
  exact ⟨rfl, rfl⟩

end Behind

/-! ## Tails that stop the reader -/

section Stops

variable {named : List Nat → String} {tail : List Char}

/-- No list and no object goes on in a tail: it begins with no punctuation and with no name of a
member, and behind a value at its front there is nothing. -/
structure Stops (named : List Nat → String) (tail : List Char) : Prop where
  isTail : IsTail tail
  head : ∀ c ∈ [']', '}', ',', ':', '"'], ∀ body, skipGap tail ≠ c :: body
  value : ∀ {fuel room : Nat} {rest : List Char} {v : Json},
    readValue named fuel room (skipGap tail) = .ok (v, rest) → skipGap rest = []

lemma IsTail.suffix_of_cons (h : IsTail tail) {c : Char} {body : List Char} (hc : 0x20 ≤ c.toNat)
    (hs : tail <:+ c :: body) : tail <:+ body := by
  refine (List.suffix_cons_iff.mp hs).resolve_left ?_
  rintro rfl
  exact absurd (h c rfl) (Nat.not_lt.mpr hc)

/-- Blanks are passed over up to the tail, or into it. -/
lemma suffix_skipGap {cs : List Char} (hs : tail <:+ cs) :
    tail <:+ skipGap cs ∨ skipGap cs = skipGap tail := by
  obtain ⟨front, rfl⟩ := hs
  by_cases hfront : skipGap front = []
  · refine .inr ?_
    rw [skipGap, List.dropWhile_append, ← skipGap, hfront]
    rfl
  · rw [skipGap_append hfront]
    exact .inl (List.suffix_append _ _)

/-- What holds lists and objects together is printed. -/
lemma le_toNat_of_mem {c : Char} (hc : c ∈ [']', '}', ',', ':', '"']) : 0x20 ≤ c.toNat := by
  have hall : [']', '}', ',', ':', '"'].all (fun c => decide (0x20 ≤ c.toNat)) = true := by decide
  exact of_decide_eq_true (List.all_eq_true.mp hall c hc)

lemma Stops.token (h : Stops named tail) {cs body : List Char} {c : Char} (hs : tail <:+ cs)
    (hc : c ∈ [']', '}', ',', ':', '"']) (hskip : skipGap cs = c :: body) : tail <:+ body := by
  rcases suffix_skipGap hs with hs | htail
  · rw [hskip] at hs
    exact h.isTail.suffix_of_cons (le_toNat_of_mem hc) hs
  · exact absurd (htail.symm.trans hskip) (h.head c hc body)

lemma Stops.not_readItems (h : Stops named tail) {fuel room : Nat}
    {found : List Json × List Char} : readItems named fuel room (skipGap tail) ≠ .ok found := by
  intro hread
  obtain ⟨items, rest⟩ := found
  cases fuel with
  | zero => cases hread
  | succ fuel =>
    cases readItems_eq_ok_iff.mp hread with
    | last hvalue hend => cases (h.value hvalue).symm.trans hend
    | more hvalue hcomma _ => cases (h.value hvalue).symm.trans hcomma

lemma Stops.not_readMembers (h : Stops named tail) {fuel room : Nat}
    {found : Members × List Char} : readMembers named fuel room (skipGap tail) ≠ .ok found := by
  intro hread
  obtain ⟨members, rest⟩ := found
  have hquote := h.head '"' (by decide)
  cases fuel with
  | zero => cases hread
  | succ fuel =>
    unfold readMembers at hread
    split at hread
    next hcons => exact hquote _ hcons
    next => cases hread

lemma suffix_of_readText (h : IsTail tail) {fuel : Nat} {cs rest : List Char} {codes : List Nat}
    (hs : tail <:+ cs) (htext : readText fuel cs = .ok (codes, rest)) : tail <:+ rest := by
  obtain ⟨front, rfl⟩ := hs
  rw [readText_append h, map_eq_ok_iff] at htext
  obtain ⟨found, -, hfound⟩ := htext
  cases hfound
  exact List.suffix_append _ _

lemma suffix_of_readScalar (h : IsTail tail) {cs rest : List Char} {v : Json} (hs : tail <:+ cs)
    (hscalar : readScalar cs = .ok (v, rest)) : tail <:+ rest := by
  obtain ⟨front, rfl⟩ := hs
  rw [readScalar_append h, map_eq_ok_iff] at hscalar
  obtain ⟨found, -, hfound⟩ := hscalar
  cases hfound
  exact List.suffix_append _ _

/-- The reader does not get into a tail with some fuel. -/
structure Halts (named : List Nat → String) (tail : List Char) (fuel : Nat) : Prop where
  value : ∀ {room : Nat} {cs rest : List Char} {v : Json}, tail <:+ cs →
    readValue named fuel room cs = .ok (v, rest) → tail <:+ rest
  items : ∀ {room : Nat} {cs rest : List Char} {items : List Json}, tail <:+ cs →
    readItems named fuel room cs = .ok (items, rest) → tail <:+ rest
  members : ∀ {room : Nat} {cs rest : List Char} {members : Members}, tail <:+ cs →
    readMembers named fuel room cs = .ok (members, rest) → tail <:+ rest

section Halts

variable {fuel room : Nat} {cs rest : List Char}

/-- Behind blanks the reader is in front of the tail still, or fails in it. -/
lemma Halts.items_skipGap (ih : Halts named tail fuel) (h : Stops named tail) (hs : tail <:+ cs)
    {items : List Json} (hread : readItems named fuel room (skipGap cs) = .ok (items, rest)) :
    tail <:+ rest := by
  rcases suffix_skipGap hs with hs | htail
  · exact ih.items hs hread
  · rw [htail] at hread
    exact absurd hread h.not_readItems

lemma Halts.members_skipGap (ih : Halts named tail fuel) (h : Stops named tail) (hs : tail <:+ cs)
    {members : Members}
    (hread : readMembers named fuel room (skipGap cs) = .ok (members, rest)) : tail <:+ rest := by
  rcases suffix_skipGap hs with hs | htail
  · exact ih.members hs hread
  · rw [htail] at hread
    exact absurd hread h.not_readMembers

lemma ValueStep.halts (ih : Halts named tail fuel) (h : Stops named tail) (hs : tail <:+ cs)
    {v : Json} (hstep : ValueStep named fuel room cs v rest) : tail <:+ rest := by
  cases hstep with
  | text htext =>
    exact suffix_of_readText h.isTail (h.isTail.suffix_of_cons (by decide) hs) htext
  | emptyList hend => exact h.token (h.isTail.suffix_of_cons (by decide) hs) (by decide) hend
  | list _ hlist => exact ih.items_skipGap h (h.isTail.suffix_of_cons (by decide) hs) hlist
  | emptyObject hend => exact h.token (h.isTail.suffix_of_cons (by decide) hs) (by decide) hend
  | object _ hobject => exact ih.members_skipGap h (h.isTail.suffix_of_cons (by decide) hs) hobject
  | scalar _ hscalar => exact suffix_of_readScalar h.isTail hs hscalar

lemma ItemsStep.halts (ih : Halts named tail fuel) (h : Stops named tail) (hs : tail <:+ cs)
    {items : List Json} (hstep : ItemsStep named fuel room cs items rest) : tail <:+ rest := by
  cases hstep with
  | last hvalue hend => exact h.token (ih.value hs hvalue) (by decide) hend
  | more hvalue hcomma hmore =>
    exact ih.items_skipGap h (h.token (ih.value hs hvalue) (by decide) hcomma) hmore

/-- The value of a member may be in the tail, if there is nothing else in it. -/
lemma MemberStep.halts (ih : Halts named tail fuel) (h : Stops named tail) (hs : tail <:+ cs)
    {member : String × Json} (hstep : MemberStep named fuel room cs member rest) :
    tail <:+ rest ∨ skipGap rest = [] := by
  obtain ⟨hname, hcolon, hvalue⟩ := hstep
  have hbody := h.isTail.suffix_of_cons (by decide) hs
  have hafter := h.token (suffix_of_readText h.isTail hbody hname) (by decide) hcolon
  rcases suffix_skipGap hafter with hs | htail
  · exact .inl (ih.value hs hvalue)
  · rw [htail] at hvalue
    exact .inr (h.value hvalue)

lemma MembersStep.halts (ih : Halts named tail fuel) (h : Stops named tail) (hs : tail <:+ cs)
    {members : Members} (hstep : MembersStep named fuel room cs members rest) :
    tail <:+ rest := by
  cases hstep with
  | last hmember hend =>
    rcases hmember.halts ih h hs with hs | hnone
    · exact h.token hs (by decide) hend
    · cases hnone.symm.trans hend
  | more hmember hcomma hmore =>
    rcases hmember.halts ih h hs with hs | hnone
    · exact ih.members_skipGap h (h.token hs (by decide) hcomma) hmore
    · cases hnone.symm.trans hcomma

end Halts

/-- **The reader does not get into a tail that stops it.** -/
theorem read_stops (h : Stops named tail) (fuel : Nat) : Halts named tail fuel := by
  induction fuel with
  | zero => exact ⟨nofun, nofun, nofun⟩
  | succ fuel ih =>
    refine ⟨fun hs hread => ?_, fun hs hread => ?_, fun hs hread => ?_⟩
    · exact (readValue_eq_ok_iff.mp hread).halts ih h hs
    · exact (readItems_eq_ok_iff.mp hread).halts ih h hs
    · exact (readMembers_eq_ok_iff.mp hread).halts ih h hs

end Stops

/-! ## Texts as a whole -/

section Whole

variable {named : List Nat → String} {room : Nat} {tail cs : List Char} {v : Json}

lemma readWithin_eq_ok_iff : readWithin named room cs = .ok v ↔
    ∃ rest, readValue named (2 * cs.length + 2) room (skipGap cs) = .ok (v, rest) ∧
      skipGap rest = [] := by
  rw [readWithin, bind_eq_ok_iff]
  constructor
  · rintro ⟨⟨v, rest⟩, hread, h⟩
    simp only at h
    split at h
    next hempty =>
      cases h
      exact ⟨rest, hread, List.isEmpty_iff.mp hempty⟩
    next => cases h
  · rintro ⟨rest, hread, hrest⟩
    exact ⟨_, hread, by simp [hrest]⟩

/-- Nothing but blanks stands in front of a tail that stops the reader, if the whole is read. -/
theorem skipGap_eq_of_stops (h : Stops named tail) (htail : skipGap tail ≠ []) (hs : tail <:+ cs)
    (hread : readWithin named room cs = .ok v) : skipGap cs = skipGap tail := by
  obtain ⟨rest, hvalue, hrest⟩ := readWithin_eq_ok_iff.mp hread
  refine (suffix_skipGap hs).resolve_left fun hs => ?_
  rcases suffix_skipGap ((read_stops h _).value hs hvalue) with hs | heq
  · rw [hrest] at hs
    exact htail (by rw [List.suffix_nil.mp hs]; rfl)
  · exact htail (heq.symm.trans hrest)

lemma readValue_tail (h : IsTail tail) {fuel : Nat} {found : Json × List Char} :
    readValue named fuel room tail ≠ .ok found := by
  intro hread
  obtain ⟨v, rest⟩ := found
  cases fuel with
  | zero => cases hread
  | succ fuel =>
    cases readValue_eq_ok_iff.mp hread with
    | scalar _ hscalar =>
      have hnone : readScalar tail = .error .malformed := readScalar_append h []
      cases hnone.symm.trans hscalar
    | _ => exact absurd (h _ rfl) (by decide)

/-- A control character that is no blank stops the reader. -/
lemma stops_of_control {c : Char} (hc : c.toNat < 0x20) (hgap : isGap c = false) :
    Stops named (c :: cs) := by
  have htail : IsTail (c :: cs) := by
    intro d hd
    cases hd
    exact hc
  have hskip : skipGap (c :: cs) = c :: cs := List.dropWhile_cons_of_neg (by simp [hgap])
  refine ⟨htail, fun d hd body hcons => ?_, fun hread => ?_⟩
  · rw [hskip] at hcons
    cases hcons
    have hprinted := le_toNat_of_mem hd
    omega
  · rw [hskip] at hread
    exact absurd hread (readValue_tail htail)

/-- **A text of JSON has no raw control characters** but blanks. -/
theorem isGap_of_mem (hread : readWithin named room cs = .ok v) {c : Char} (hc : c ∈ cs)
    (hlow : c.toNat < 0x20) : isGap c = true := by
  by_contra hgap
  have hgap : isGap c = false := by simpa using hgap
  obtain ⟨front, behind, rfl⟩ := List.append_of_mem hc
  have hstops : Stops named (c :: behind) := stops_of_control hlow hgap
  have hskip : skipGap (c :: behind) = c :: behind := List.dropWhile_cons_of_neg (by simp [hgap])
  have heq := skipGap_eq_of_stops hstops (by simp [hskip]) (List.suffix_append _ _) hread
  obtain ⟨rest, hvalue, -⟩ := readWithin_eq_ok_iff.mp hread
  rw [heq, hskip] at hvalue
  exact readValue_tail hstops.isTail hvalue

end Whole

end HoneypotAudit.Json
