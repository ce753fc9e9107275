import Keymap.Listing.Layers
import Keymap.Proofs.Text.Words

/-!
# Names in the listings of layers

Layers have names of their own in listings, and so have their trigger lists: the
name of a list begins with that of its layer, which has no underscore, and ends
with its number.
-/

namespace Keymap.Listing

open Text

/-- The name of a layer in listings. -/
def tableName (n : Nat) : String := if n = 0 then "default" else layerName n

/-- The name of a trigger list of a layer. -/
def listName (layer : String) (k : Nat) : String := layer ++ "_tl_" ++ hex k

private theorem layerName_injective {n m : Nat} (h : layerName n = layerName m) : n = m :=
  toString_injective ((String.append_right_inj "layer").mp h)

private theorem default_ne_layerName (n : Nat) : "default" ≠ layerName n := by
  intro h
  have hhead := congrArg (fun s => s.toList.head?) h
  simp [layerName] at hhead

/-- Every layer has a name of its own. -/
theorem tableName_injective {n m : Nat} (h : tableName n = tableName m) : n = m := by
  rw [tableName, tableName] at h
  split at h <;> split at h
  next hn hm => rw [hn, hm]
  next => exact absurd h (default_ne_layerName m)
  next => exact absurd h.symm (default_ne_layerName n)
  next => exact layerName_injective h

/-- The name of a layer has no underscores. -/
private theorem ne_underscore_of_mem_tableName {n : Nat} {c : Char}
    (h : c ∈ (tableName n).toList) : c ≠ '_' := by
  rw [tableName] at h
  split at h
  next =>
    rintro rfl
    exact absurd h (by decide)
  next =>
    rw [layerName, String.toList_append, List.mem_append] at h
    rcases h with h | h
    · rintro rfl
      exact absurd h (by decide)
    · exact forall_mem_toString (p := (· ≠ '_')) (by decide) n c h

/-- The name of a layer is what stands before the first underscore of its lists' names. -/
private theorem takeWhile_listName (n k : Nat) :
    (listName (tableName n) k).toList.takeWhile (· ≠ '_') = (tableName n).toList := by
  rw [listName, String.toList_append, String.toList_append, List.append_assoc,
    List.takeWhile_append_of_pos
      fun c hc => decide_eq_true (ne_underscore_of_mem_tableName hc)]
  exact List.append_nil _

/-- Every trigger list has a name of its own. -/
theorem listName_injective {n m k l : Nat}
    (h : listName (tableName n) k = listName (tableName m) l) : n = m ∧ k = l := by
  have hlayer : (tableName n).toList = (tableName m).toList := by
    rw [← takeWhile_listName n k, h, takeWhile_listName]
  obtain rfl := tableName_injective (String.toList_inj.mp hlayer)
  exact ⟨rfl, hex_injective ((String.append_right_inj _).mp h)⟩

/-- The name of a layer is a word. -/
theorem isWord_tableName (n : Nat) : IsWord (tableName n) := by
  rw [tableName]
  split
  next => decide
  next => exact IsWord.append (by decide) (isWord_toString n)

/-- The name of a trigger list is a word. -/
theorem isWord_listName (n k : Nat) : IsWord (listName (tableName n) k) :=
  ((isWord_tableName n).append (by decide)).append (isWord_hex k)

/-- No word that begins with another character begins with the name of a layer. -/
theorem tableName_append_ne {word : String} (hd : word.toList.head? ≠ some 'd')
    (hl : word.toList.head? ≠ some 'l') (n : Nat) (rest : String) :
    word ≠ tableName n ++ rest := by
  rintro rfl
  rw [tableName] at hd hl
  split at hd
  next => simp at hd
  next hn => simp [hn, layerName] at hl

end Keymap.Listing
