import LateBind.Proofs.JsonText

/-! # The length of JSON text

The text of a value is no shorter than those of its parts, and no longer than the room that can be
counted without writing it. -/

namespace LateBind.Json

/-! ## From below -/

theorem sum_length_le_intercalate (texts : List String) :
    (texts.map String.length).sum ≤ (",".intercalate texts).length := by
  induction texts with
  | nil => simp
  | cons text texts ih =>
    cases texts with
    | nil => simp
    | cons next texts =>
      rw [String.intercalate_cons_cons, String.length_append, String.length_append, List.map_cons,
        List.sum_cons]
      omega

/-- A list is written in no less room than its items. -/
theorem sum_length_le_render_arr (items : List Json) :
    (items.map fun j => j.render.length).sum ≤ (arr items).render.length := by
  have sum := sum_length_le_intercalate (renderItems items)
  rw [renderItems_eq, List.map_map] at sum
  rw [render, String.length_append, String.length_append, renderItems_eq]
  exact Nat.le_trans sum (by omega)

/-- A list has fewer items than symbols. -/
theorem length_le_render_arr (items : List Json) : items.length ≤ (arr items).render.length := by
  have count := length_le_length_intercalate (renderItems items)
  rw [renderItems_eq, List.length_map] at count
  rw [render, String.length_append, String.length_append, renderItems_eq]
  have : "[".length = 1 := rfl
  omega

theorem length_le_render_obj {members : List (String × Json)} {e : String × Json}
    (mem : e ∈ members) : e.2.render.length ≤ (obj members).render.length := by
  obtain ⟨name, j⟩ := e
  have inside := length_le_intercalate
    (renderMembers_eq members ▸ List.mem_map_of_mem mem)
  have part : j.render.length ≤ (renderString name ++ ":" ++ j.render).length := by
    rw [String.length_append]
    omega
  have inside := part.trans inside
  rw [render, String.length_append, String.length_append]
  exact Nat.le_trans inside (by omega)

/-! ## From above -/

theorem length_escapeChar_le (c : Char) : (escapeChar c).length ≤ 6 := by
  unfold escapeChar
  split_ifs <;> simp [Hex.length_padded]

theorem length_renderString_le (s : String) : (renderString s).length ≤ 6 * s.length + 2 := by
  have escaped : (s.toList.flatMap escapeChar).length ≤ 6 * s.toList.length := by
    induction s.toList with
    | nil => simp
    | cons c cs ih =>
      have := length_escapeChar_le c
      rw [List.flatMap_cons, List.length_append, List.length_cons]
      omega
  have inner : (String.ofList (s.toList.flatMap escapeChar)).length =
      (s.toList.flatMap escapeChar).length := String.length_ofList
  rw [String.length_toList] at escaped
  rw [renderString, String.length_append, String.length_append, inner]
  have : "\"".length = 1 := rfl
  omega

mutual

/-- More room than the text of a value takes. -/
def room : Json → Nat
  | str s => 6 * s.length + 2
  | arr items => roomOfItems items + 2
  | obj members => roomOfMembers members + 2
  | j => j.render.length

def roomOfItems : List Json → Nat
  | [] => 0
  | j :: rest => j.room + 1 + roomOfItems rest

def roomOfMembers : List (String × Json) → Nat
  | [] => 0
  | (name, j) :: rest => 6 * name.length + 4 + j.room + roomOfMembers rest

end

theorem length_intercalate_cons_le (text : String) (texts : List String) :
    (",".intercalate (text :: texts)).length ≤ text.length + 1 + (",".intercalate texts).length := by
  cases texts with
  | nil => simp
  | cons next texts =>
    rw [String.intercalate_cons_cons, String.length_append, String.length_append]
    have : ",".length = 1 := rfl
    omega

mutual

theorem length_render_le (j : Json) : j.render.length ≤ j.room := by
  cases j with
  | str s => exact length_renderString_le s
  | arr items =>
    have := length_renderItems_le items
    rw [render, room, String.length_append, String.length_append]
    have : "[".length = 1 := rfl
    have : "]".length = 1 := rfl
    omega
  | obj members =>
    have := length_renderMembers_le members
    rw [render, room, String.length_append, String.length_append]
    have : "\x7b".length = 1 := rfl
    have : "\x7d".length = 1 := rfl
    omega
  | _ => exact Nat.le_refl _

theorem length_renderItems_le (items : List Json) :
    (",".intercalate (renderItems items)).length ≤ roomOfItems items := by
  cases items with
  | nil => simp [renderItems]
  | cons j rest =>
    have := length_render_le j
    have := length_renderItems_le rest
    have := length_intercalate_cons_le j.render (renderItems rest)
    rw [renderItems, roomOfItems]
    omega

theorem length_renderMembers_le (members : List (String × Json)) :
    (",".intercalate (renderMembers members)).length ≤ roomOfMembers members := by
  cases members with
  | nil => simp [renderMembers]
  | cons e rest =>
    obtain ⟨name, j⟩ := e
    have := length_render_le j
    have := length_renderMembers_le rest
    have := length_renderString_le name
    have joined := length_intercalate_cons_le (renderString name ++ ":" ++ j.render)
      (renderMembers rest)
    rw [String.length_append, String.length_append] at joined
    rw [renderMembers, roomOfMembers]
    have : ":".length = 1 := rfl
    omega

end

end LateBind.Json
