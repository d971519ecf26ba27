/-
Lists with a slot for each key.

Some values go by a key. A list of slots is filled one value after the
other: a value goes into the slot of its key, together with what is there,
or gets a slot at the end, if its key is new or it has none (`put`).

When all values are in, the slots are those of the values that came first
with their key (`firsts`), and each holds all values with the key, put
together from first to last (`gather`). This is `foldl_put`. Its step looks
at one more value: with a new key it adds a slot and leaves the others
alone, and otherwise it changes the only slot with its key.
-/
import Mathlib.Data.List.Induction

namespace AudioMux.Slots

variable {α κ : Type} [DecidableEq κ] (key? : α → Option κ)

-- ============================================================= definitions

/-- The values that come first with their key, and those without one. -/
def firsts : List α → List α
  | [] => []
  | a :: later =>
    a :: (firsts later).filter fun b => key? b = none ∨ key? b ≠ key? a

/-- Puts a value into the first slot of its key, or at the end. -/
def put (merge : α → α → α) (a : α) : List α → List α
  | [] => [a]
  | old :: rest =>
    if key? a ≠ none ∧ key? old = key? a then merge old a :: rest
    else old :: put merge a rest

/-- Values put together from first to last. -/
def mergeAll (merge : α → α → α) : List α → Option α
  | [] => none
  | a :: later => some (later.foldl merge a)

/-- The values with a key, in order. -/
def withKey (k : κ) (as : List α) : List α :=
  as.filter fun a => key? a = some k

/-- All values with the key of a given one, put together. -/
def gather (merge : α → α → α) (as : List α) (a : α) : α :=
  match key? a with
  | none => a
  | some k => (mergeAll merge (withKey key? k as)).getD a

/-- Two values with the same key keep it when they are put together. -/
def KeepsKey (merge : α → α → α) : Prop :=
  ∀ a b, key? a = key? b → key? (merge a b) = key? a

variable {key?} {merge : α → α → α} {as : List α} {a b : α} {k : κ}

-- ================================================================== firsts

theorem firsts_sublist (as : List α) : (firsts key? as).Sublist as := by
  induction as with
  | nil => exact .slnil
  | cons a later ih => exact (List.filter_sublist.trans ih).cons_cons _

/-- Every key has a slot. -/
theorem exists_first (ha : a ∈ as) (hk : key? a = some k) :
    ∃ first ∈ firsts key? as, key? first = some k := by
  induction as with
  | nil => cases ha
  | cons head later ih =>
      by_cases hhead : key? head = some k
      · exact ⟨head, List.mem_cons_self, hhead⟩
      rcases List.mem_cons.mp ha with rfl | hlater
      · exact absurd hk hhead
      obtain ⟨first, hfirst, hsame⟩ := ih hlater
      refine ⟨first, List.mem_cons_of_mem _ (List.mem_filter.mpr ?_), hsame⟩
      refine ⟨hfirst, decide_eq_true (Or.inr ?_)⟩
      rw [hsame]
      exact Ne.symm hhead

/-- No two slots have a key in common. -/
theorem pairwise_firsts (as : List α) :
    (firsts key? as).Pairwise fun first second =>
      key? first = key? second → key? first = none := by
  induction as with
  | nil => exact .nil
  | cons head later ih =>
      refine .cons ?_ (ih.filter _)
      intro other hother hkey
      rcases of_decide_eq_true (List.mem_filter.mp hother).2 with
        hnone | hne
      · exact hkey.trans hnone
      · exact absurd hkey.symm hne

/-- One more value has a slot of its own if it has no key, or a new one. -/
theorem firsts_concat (as : List α) (a : α) :
    firsts key? (as ++ [a])
      = firsts key? as ++
        if key? a = none ∨ ∀ b ∈ as, key? b ≠ key? a then [a] else [] := by
  induction as with
  | nil => simp [firsts]
  | cons head later ih =>
      rw [List.cons_append]
      unfold firsts
      rw [ih, List.filter_append, List.cons_append]
      congr 2
      by_cases hnone : key? a = none
      · simp [hnone]
      by_cases hhead : key? head = key? a
      · simp [hnone, hhead]
      · simpa [hnone, hhead] using fun _ => Ne.symm hhead

/-- A key has one slot, where it came first. -/
theorem withKey_firsts (k : κ) (as : List α) :
    withKey key? k (firsts key? as)
      = (withKey key? k as).head?.toList := by
  unfold withKey
  induction as with
  | nil => rfl
  | cons head later ih =>
      unfold firsts
      by_cases hhead : key? head = some k
      · have hnone : ((firsts key? later).filter fun b =>
            key? b = none ∨ key? b ≠ key? head).filter
              (fun b => key? b = some k) = [] := by
          rw [List.filter_filter]
          apply List.filter_eq_nil_iff.mpr
          intro other _ hboth
          obtain ⟨hsame, hpassed⟩ : key? other = some k
              ∧ (key? other = none ∨ key? other ≠ key? head) := by
            simpa using hboth
          rcases hpassed with hfree | hne
          · cases hsame.symm.trans hfree
          · exact hne (hsame.trans hhead.symm)
        simp only [List.filter_cons, decide_eq_true hhead, if_true, hnone,
          List.head?_cons, Option.toList_some]
      · have hpass : ((firsts key? later).filter fun b =>
            key? b = none ∨ key? b ≠ key? head).filter
              (fun b => key? b = some k)
            = (firsts key? later).filter fun b => key? b = some k := by
          rw [List.filter_filter]
          apply List.filter_congr
          intro other _
          by_cases hsame : key? other = some k
          · simp [hsame, Ne.symm hhead]
          · simp [hsame]
        simp only [List.filter_cons, decide_eq_false hhead, hpass, ih,
          Bool.false_eq_true, if_false]

/-- What has no key keeps a slot of its own. -/
theorem filter_none_firsts (as : List α) :
    (firsts key? as).filter (fun a => key? a = none)
      = as.filter fun a => key? a = none := by
  induction as with
  | nil => rfl
  | cons head later ih =>
      have hpass : ((firsts key? later).filter fun b =>
          key? b = none ∨ key? b ≠ key? head).filter
            (fun b => key? b = none)
          = (firsts key? later).filter fun b => key? b = none := by
        rw [List.filter_filter]
        apply List.filter_congr
        intro other _
        by_cases hnone : key? other = none <;> simp [hnone]
      unfold firsts
      simp only [List.filter_cons, hpass, ih]

/-- Whether a value has a slot of its own can be told from the slots there
are. -/
theorem own_iff_firsts (key? : α → Option κ) (as : List α) (a : α) :
    (key? a = none ∨ ∀ b ∈ as, key? b ≠ key? a)
      ↔ (key? a = none ∨ ∀ b ∈ firsts key? as, key? b ≠ key? a) := by
  constructor
  · apply Or.imp_right
    intro hnew b hb
    exact hnew b ((firsts_sublist as).mem hb)
  · rintro (hnone | hnew)
    · exact Or.inl hnone
    cases hk : key? a with
    | none => exact Or.inl rfl
    | some k =>
        refine Or.inr fun b hb hsame => ?_
        obtain ⟨first, hfirst, hkey⟩ := exists_first hb hsame
        exact hnew first hfirst (hkey.trans hk.symm)

/-- Slots depend on the keys only. -/
theorem firsts_map {β : Type} {f : α → β} {own? : β → Option κ}
    (hkey : ∀ a, own? (f a) = key? a) (as : List α) :
    firsts own? (as.map f) = (firsts key? as).map f := by
  induction as with
  | nil => rfl
  | cons a later ih =>
      rw [List.map_cons]
      unfold firsts
      rw [ih, List.filter_map, List.map_cons]
      simp only [Function.comp_def, hkey]

/-- Keeping only the first value with each key makes no difference to slots
that such values share anyway. -/
theorem firsts_filterMap_firsts {β κ' : Type} [DecidableEq κ']
    {own? : β → Option κ'} {f : α → Option β}
    (hsame : ∀ a b, key? a ≠ none → key? a = key? b → f a = f b)
    (hslot : ∀ a b, key? a ≠ none → f a = some b → own? b ≠ none)
    (as : List α) :
    firsts own? ((firsts key? as).filterMap f)
      = firsts own? (as.filterMap f) := by
  induction as using List.reverseRecOn with
  | nil => rfl
  | append_singleton as a ih =>
      rw [firsts_concat, List.filterMap_append, List.filterMap_append]
      by_cases hown : key? a = none ∨ ∀ b ∈ as, key? b ≠ key? a
      · rw [if_pos hown]
        cases hvalue : f a with
        | none => simp [hvalue, ih]
        | some b =>
            have hone : [a].filterMap f = [b] := by simp [hvalue]
            have hiff :=
              own_iff_firsts own? ((firsts key? as).filterMap f) b
            rw [ih, ← own_iff_firsts] at hiff
            rw [hone, firsts_concat, firsts_concat, ih]
            simp only [hiff]
      · obtain ⟨hsome, hold⟩ := not_or.mp hown
        obtain ⟨b, hb, hkey⟩ : ∃ b ∈ as, key? b = key? a := by
          simpa using hold
        rw [if_neg hown, List.filterMap_nil, List.append_nil, ih]
        cases hvalue : f a with
        | none => simp [hvalue]
        | some c =>
            have hone : [a].filterMap f = [c] := by simp [hvalue]
            have hmem : c ∈ as.filterMap f := by
              refine List.mem_filterMap.mpr ⟨b, hb, ?_⟩
              rw [← hsame a b hsome hkey.symm, hvalue]
            rw [hone, firsts_concat, if_neg, List.append_nil]
            rintro (hnone | hnew)
            · exact hslot a c hsome hvalue hnone
            · exact hnew c hmem rfl

-- =============================================================== gathering

theorem gather_of_none (h : key? a = none) (as : List α) :
    gather key? merge as a = a := by
  unfold gather
  rw [h]

omit [DecidableEq κ] in
theorem key_foldl
    (hmerge : KeepsKey key? merge)
    (hlater : ∀ b ∈ as, key? b = key? a) :
    key? (as.foldl merge a) = key? a := by
  induction as generalizing a with
  | nil => rfl
  | cons b later ih =>
      have hkept := hmerge a b (hlater b List.mem_cons_self).symm
      rw [List.foldl_cons, ih, hkept]
      intro other hother
      rw [hkept]
      exact hlater other (List.mem_cons_of_mem _ hother)

/-- Values with a key together have that key. -/
theorem key_mergeAll
    (hmerge : KeepsKey key? merge)
    (h : mergeAll merge (withKey key? k as) = some a) :
    key? a = some k := by
  have hall : ∀ b ∈ withKey key? k as, key? b = some k := by
    intro b hb
    simpa using (List.mem_filter.mp hb).2
  cases hvalues : withKey key? k as with
  | nil =>
      rw [hvalues] at h
      cases h
  | cons first later =>
      rw [hvalues] at h hall
      cases h
      have hfirst := hall first List.mem_cons_self
      rw [key_foldl hmerge, hfirst]
      intro b hb
      rw [hall b (List.mem_cons_of_mem _ hb), hfirst]

theorem key_gather
    (hmerge : KeepsKey key? merge)
    (as : List α) (a : α) : key? (gather key? merge as a) = key? a := by
  cases hk : key? a with
  | none => rw [gather_of_none hk, hk]
  | some k =>
      have hgather : gather key? merge as a
          = (mergeAll merge (withKey key? k as)).getD a := by
        simp [gather, hk]
      rw [hgather]
      cases hall : mergeAll merge (withKey key? k as) with
      | none => exact hk
      | some b => exact key_mergeAll hmerge hall

theorem mergeAll_concat (as : List α) (a : α) :
    mergeAll merge (as ++ [a])
      = some ((mergeAll merge as).elim a fun old => merge old a) := by
  cases as with
  | nil => rfl
  | cons first later =>
      simp only [List.cons_append, mergeAll, List.foldl_append]
      rfl

/-- One more value joins those with its key. -/
theorem gather_concat (ha : a ∈ as) (last : α) :
    gather key? merge (as ++ [last]) a
      = if key? a ≠ none ∧ key? a = key? last
        then merge (gather key? merge as a) last
        else gather key? merge as a := by
  unfold gather
  cases hk : key? a with
  | none => simp
  | some k =>
      dsimp only
      have hold : withKey key? k as ≠ [] :=
        List.ne_nil_of_mem (List.mem_filter.mpr ⟨ha, decide_eq_true hk⟩)
      by_cases hlast : key? last = some k
      · have hmore : withKey key? k (as ++ [last])
            = withKey key? k as ++ [last] := by
          simp [withKey, List.filter_append, hlast]
        rw [hmore, mergeAll_concat, if_pos ⟨by simp, hlast.symm⟩]
        cases hvalues : withKey key? k as with
        | nil => exact absurd hvalues hold
        | cons first later => rfl
      · have hsame : withKey key? k (as ++ [last]) = withKey key? k as := by
          simp [withKey, List.filter_append, hlast]
        rw [hsame, if_neg fun h => hlast h.2.symm]

/-- The first value with a key is all there is of it. -/
theorem gather_concat_self (hown : key? a = none ∨ ∀ b ∈ as, key? b ≠ key? a) :
    gather key? merge (as ++ [a]) a = a := by
  unfold gather
  cases hk : key? a with
  | none => rfl
  | some k =>
      rw [hk] at hown
      have hnew := hown.resolve_left (by simp)
      have hnone : withKey key? k as = [] :=
        List.filter_eq_nil_iff.mpr fun b hb => by simpa using hnew b hb
      have hone : withKey key? k (as ++ [a]) = [a] := by
        unfold withKey at hnone ⊢
        rw [List.filter_append, hnone]
        simp [hk]
      dsimp only
      rw [hone]
      rfl

-- ================================================================= putting

/-- A value without a slot gets one at the end. -/
theorem put_of_own (hown : key? a = none ∨ ∀ b ∈ as, key? b ≠ key? a) :
    put key? merge a as = as ++ [a] := by
  induction as with
  | nil => rfl
  | cons head later ih =>
      have hhead : ¬ (key? a ≠ none ∧ key? head = key? a) := by
        rintro ⟨hsome, hsame⟩
        rcases hown with hnone | hnew
        · exact hsome hnone
        · exact hnew head List.mem_cons_self hsame
      unfold put
      rw [if_neg hhead, ih (hown.imp_right fun hnew b hb =>
        hnew b (List.mem_cons_of_mem _ hb))]
      rfl

/-- With one slot for a key, a value goes there and nowhere else. -/
theorem put_of_slot (hk : key? a = some k)
    (hold : ∃ b ∈ as, key? b = some k)
    (hone : as.Pairwise fun first second =>
      key? first = key? second → key? first ≠ some k) :
    put key? merge a as
      = as.map fun b => if key? b = some k then merge b a else b := by
  induction as with
  | nil => simp at hold
  | cons head later ih =>
      obtain ⟨hhead, hlater⟩ := List.pairwise_cons.mp hone
      unfold put
      rw [hk]
      by_cases hkey : key? head = some k
      · have hkept : later.map (fun b =>
            if key? b = some k then merge b a else b) = later.map id := by
          apply List.map_congr_left
          intro b hb
          exact if_neg fun hsame =>
            hhead b hb (hkey.trans hsame.symm) hkey
        rw [if_pos ⟨by simp, hkey⟩, List.map_cons, if_pos hkey, hkept,
          List.map_id]
      · rw [if_neg fun h => hkey h.2, List.map_cons, if_neg hkey]
        obtain ⟨b, hb, hsame⟩ := hold
        have hmem : b ∈ later := (List.mem_cons.mp hb).resolve_left
          fun heq => hkey (heq ▸ hsame)
        rw [ih ⟨b, hmem, hsame⟩ hlater]

/-- The slots with all values in them. -/
def slots (key? : α → Option κ) (merge : α → α → α) (as : List α) :
    List α :=
  (firsts key? as).map (gather key? merge as)

theorem exists_first_of_slots
    (hmerge : KeepsKey key? merge)
    (hb : b ∈ slots key? merge as) : ∃ first ∈ as, key? first = key? b := by
  obtain ⟨first, hfirst, rfl⟩ := List.mem_map.mp hb
  exact ⟨first, (firsts_sublist as).mem hfirst,
    (key_gather hmerge as first).symm⟩

theorem put_slots
    (hmerge : KeepsKey key? merge)
    (as : List α) (a : α) :
    put key? merge a (slots key? merge as)
      = slots key? merge (as ++ [a]) := by
  by_cases hown : key? a = none ∨ ∀ b ∈ as, key? b ≠ key? a
  · have hkept : ∀ b ∈ firsts key? as,
        gather key? merge (as ++ [a]) b = gather key? merge as b := by
      intro b hb
      have hmem := (firsts_sublist as).mem hb
      rw [gather_concat hmem, if_neg]
      rintro ⟨hsome, hsame⟩
      rcases hown with hnone | hnew
      · exact hsome (hsame.trans hnone)
      · exact hnew b hmem hsame
    rw [put_of_own]
    · unfold slots
      rw [firsts_concat, if_pos hown, List.map_append,
        List.map_congr_left hkept, List.map_singleton,
        gather_concat_self hown]
    · apply hown.imp_right
      intro hnew b hb
      obtain ⟨first, hfirst, hsame⟩ := exists_first_of_slots hmerge hb
      rw [← hsame]
      exact hnew first hfirst
  · obtain ⟨hsome, hold⟩ := not_or.mp hown
    obtain ⟨k, hk⟩ := Option.ne_none_iff_exists'.mp hsome
    obtain ⟨b, hb, hsame⟩ : ∃ b ∈ as, key? b = key? a := by simpa using hold
    rw [put_of_slot hk]
    · unfold slots
      rw [firsts_concat, if_neg hown, List.append_nil, List.map_map]
      apply List.map_congr_left
      intro first hfirst
      rw [Function.comp_apply, key_gather hmerge,
        gather_concat ((firsts_sublist as).mem hfirst), hk]
      by_cases hslot : key? first = some k
      · rw [if_pos hslot, if_pos ⟨by simp [hslot], hslot⟩]
      · rw [if_neg hslot, if_neg fun h => hslot h.2]
    · obtain ⟨first, hfirst, hkey⟩ := exists_first hb (hsame.trans hk)
      refine ⟨_, List.mem_map_of_mem hfirst, ?_⟩
      rw [key_gather hmerge, hkey]
    · unfold slots
      rw [List.pairwise_map]
      apply (pairwise_firsts as).imp
      intro first second hnone hkeys hslot
      simp only [key_gather hmerge] at hkeys hslot
      simp [hnone hkeys] at hslot

/-- Put one after the other, values fill the slots of those that came first
with all that have the same key. -/
theorem foldl_put
    (hmerge : KeepsKey key? merge)
    (as : List α) :
    as.foldl (fun filled a => put key? merge a filled) []
      = slots key? merge as := by
  induction as using List.reverseRecOn with
  | nil => rfl
  | append_singleton as a ih =>
      rw [List.foldl_append, ih]
      exact put_slots hmerge as a

-- ================================================================= looking

/-- In the slot of a key are all values with it, put together. -/
theorem withKey_slots
    (hmerge : KeepsKey key? merge)
    (k : κ) (as : List α) :
    withKey key? k (slots key? merge as)
      = (mergeAll merge (withKey key? k as)).toList := by
  have hslots : withKey key? k (slots key? merge as)
      = (withKey key? k (firsts key? as)).map (gather key? merge as) := by
    unfold withKey slots
    rw [List.filter_map]
    congr 2
    funext first
    exact congrArg (fun key => decide (key = some k))
      (key_gather hmerge as first)
  rw [hslots, withKey_firsts]
  cases hvalues : withKey key? k as with
  | nil => rfl
  | cons first later =>
      have hfirst : key? first = some k := by
        have hmem : first ∈ withKey key? k as := by simp [hvalues]
        simpa using (List.mem_filter.mp hmem).2
      simp [gather, hfirst, hvalues, mergeAll]

/-- What has no key is left as it is. -/
theorem filter_none_slots
    (hmerge : KeepsKey key? merge)
    (as : List α) :
    (slots key? merge as).filter (fun a => key? a = none)
      = as.filter fun a => key? a = none := by
  have hslots : (slots key? merge as).filter (fun a => key? a = none)
      = ((firsts key? as).filter fun a => key? a = none).map
          (gather key? merge as) := by
    unfold slots
    rw [List.filter_map]
    congr 2
    funext first
    exact congrArg (fun key => decide (key = none))
      (key_gather hmerge as first)
  have hstay : ∀ a ∈ as.filter (fun a => key? a = none),
      gather key? merge as a = id a := by
    intro a ha
    exact gather_of_none (by simpa using (List.mem_filter.mp ha).2) as
  rw [hslots, filter_none_firsts, List.map_congr_left hstay, List.map_id]

end AudioMux.Slots
