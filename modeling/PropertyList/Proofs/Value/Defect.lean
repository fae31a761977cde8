import Mathlib.Data.Int.Notation
import PropertyList.Document.Exchange
import PropertyList.Proofs.Value.Paired

/-! Values with a defect in one place, however deep. The node of such a value fails with what is said
of the defect, since all that stands in front of it is passed over. -/
namespace PropertyList

/-- Whether a failure says that a property list cannot stand for a value. -/
def Failure.IsUnrepresentable : Failure → Prop
  | .integerRange _ => True
  | .keyType _ => True
  | .unrepresentable _ => True
  | _ => False

namespace Value

/-- What a value can hold that a property list has no place for. -/
inductive Defect where
  | integer (n : ℤ) (h : n < 0 ∨ maxInteger < n)
  | null
  | key (k : Value) (h : ∀ name, k ≠ .string name)
  | foreign (typeName : Text)

/-- Whether a defect is an integer that is too long to be written into a message. -/
def Defect.IsHuge : Defect → Prop
  | .integer n _ => 10 ^ maxDecimalDigits ≤ n.natAbs
  | _ => False

/-- What is said of a defect. -/
def Defect.failure : Defect → Failure
  | .integer n _ => if 10 ^ maxDecimalDigits ≤ n.natAbs then .hugeInteger else .integerRange n
  | .null => .unrepresentable (text "NoneType")
  | .key k _ => .keyType k.typeName
  | .foreign typeName => .unrepresentable typeName

theorem Defect.failure_of_isHuge {d : Defect} (h : d.IsHuge) : d.failure = .hugeInteger := by
  cases d with
  | integer n =>
    have hlong : 10 ^ maxDecimalDigits ≤ n.natAbs := h
    rw [failure, if_pos hlong]
  | _ => exact h.elim

theorem Defect.isUnrepresentable_failure {d : Defect} (h : ¬ d.IsHuge) :
    d.failure.IsUnrepresentable := by
  cases d with
  | integer n =>
    have hshort : ¬ 10 ^ maxDecimalDigits ≤ n.natAbs := h
    rw [failure, if_neg hshort]
    trivial
  | _ => trivial

/-- Whether a value becomes another one when a defect takes the place of one of its parts. A field of
a record that has no value is no part. -/
inductive Spoils : Defect → Value → Value → Prop
  | integer (n : ℤ) (h : n < 0 ∨ maxInteger < n) (v : Value) : Spoils (.integer n h) v (.integer n)
  | null (v : Value) : Spoils .null v .null
  | foreign (typeName : Text) (v : Value) : Spoils (.foreign typeName) v (.foreign typeName)
  | key (k : Value) (h : ∀ name, k ≠ .string name) (name : Text) (v : Value)
      (front back : List (Value × Value)) :
      Spoils (.key k h) (.dict (front ++ (.string name, v) :: back))
        (.dict (front ++ (k, v) :: back))
  | enumeration {d : Defect} {v w : Value} (type : ClassName) (h : Spoils d v w) :
      Spoils d (.enumeration type v) (.enumeration type w)
  | list {d : Defect} {v w : Value} (front back : List Value) (h : Spoils d v w) :
      Spoils d (.list (front ++ v :: back)) (.list (front ++ w :: back))
  | tuple {d : Defect} {v w : Value} (front back : List Value) (h : Spoils d v w) :
      Spoils d (.tuple (front ++ v :: back)) (.tuple (front ++ w :: back))
  | entry {d : Defect} {v w : Value} (k : Value) (front back : List (Value × Value))
      (h : Spoils d v w) :
      Spoils d (.dict (front ++ (k, v) :: back)) (.dict (front ++ (k, w) :: back))
  | field {d : Defect} {v w : Value} (type : ClassName) (name : Text) (front back : List (Text × Value))
      (hv : v ≠ .null) (hw : w ≠ .null) (h : Spoils d v w) :
      Spoils d (.record type (front ++ (name, v) :: back))
        (.record type (front ++ (name, w) :: back))

end Value

namespace Node

section Parts

variable {inRecord : Bool} {v w : Value} {failure : Failure}

/-- A failure in the place of an item comes through if all items in front of it have nodes. -/
theorem itemNodes_replace (h : (∃ node, ofValueIn inRecord v = .ok node) →
      ofValueIn inRecord w = .error failure) (back : List Value) :
    (front : List Value) → (∃ nodes, itemNodes inRecord (front ++ v :: back) = .ok nodes) →
      itemNodes inRecord (front ++ w :: back) = .error failure
  | [], hok => by
    rw [List.nil_append, itemNodes, exists_except_both_iff] at hok
    rw [List.nil_append, itemNodes, h hok.1]
    rfl
  | item :: front, hok => by
    rw [List.cons_append, itemNodes, exists_except_both_iff] at hok
    obtain ⟨⟨node, hnode⟩, hrest⟩ := hok
    rw [List.cons_append, itemNodes, hnode, itemNodes_replace h back front hrest]
    rfl

/-- The children of a dictionary that has children begin with a key and its value. -/
theorem exists_entryNodes_cons {entry : Value × Value} {rest : List (Value × Value)}
    (h : ∃ nodes, entryNodes inRecord (entry :: rest) = .ok nodes) :
    ∃ name node, entry.1 = .string name ∧ name.isXml = true ∧
      ofValueIn inRecord entry.2 = .ok node ∧ ∃ nodes, entryNodes inRecord rest = .ok nodes := by
  obtain ⟨nodes, hnodes⟩ := h
  obtain ⟨hnil, -⟩ | ⟨name, v, others, node, more, hcons, -, hnode, hmore, hname⟩ :=
    entryNodes_cases hnodes
  · cases hnil
  · cases hcons
    exact ⟨name, node, rfl, hname, hnode, more, hmore⟩

theorem entryOf_error {name : Text} (h : name.isXml = true) (failure : Failure) :
    entryOf name (.error failure) = .error failure := by
  rw [entryOf, ofKeyText_eq_ok.mpr ⟨h, rfl⟩]
  rfl

theorem entryNodes_replace {entry other : Value × Value} (back : List (Value × Value))
    (h : (∃ nodes, entryNodes inRecord (entry :: back) = .ok nodes) →
      entryNodes inRecord (other :: back) = .error failure) :
    (front : List (Value × Value)) →
      (∃ nodes, entryNodes inRecord (front ++ entry :: back) = .ok nodes) →
        entryNodes inRecord (front ++ other :: back) = .error failure
  | [], hok => h hok
  | (k, value) :: front, hok => by
    obtain ⟨name, node, hk, hname, hnode, hrest⟩ := exists_entryNodes_cons hok
    obtain rfl : k = .string name := hk
    have htail := entryNodes_replace back h front hrest
    rw [List.cons_append, entryNodes, hnode, entryOf_of_isXml hname, htail]
    rfl

theorem fieldNodes_replace (hv : v ≠ .null) (hw : w ≠ .null)
    (h : (∃ node, ofValueIn true v = .ok node) → ofValueIn true w = .error failure) (name : Text)
    (back : List (Text × Value)) :
    (front : List (Text × Value)) →
      (∃ nodes, fieldNodes (front ++ (name, v) :: back) = .ok nodes) →
        fieldNodes (front ++ (name, w) :: back) = .error failure
  | [], hok => by
    obtain ⟨nodes, hnodes⟩ := hok
    rw [List.nil_append, fieldNodes_of_ne_null hv] at hnodes
    obtain ⟨node, -, hnode, -, hname, -⟩ := entryOf_append_eq_ok hnodes
    rw [List.nil_append, fieldNodes_of_ne_null hw, h ⟨node, hnode⟩, entryOf_error hname]
    rfl
  | (other, value) :: front, hok => by
    by_cases hvalue : value = .null
    · rw [hvalue, List.cons_append, fieldNodes_null] at hok ⊢
      exact fieldNodes_replace hv hw h name back front hok
    · obtain ⟨nodes, hnodes⟩ := hok
      rw [List.cons_append, fieldNodes_of_ne_null hvalue] at hnodes ⊢
      obtain ⟨node, others, hnode, hothers, hother, -⟩ := entryOf_append_eq_ok hnodes
      rw [hnode, entryOf_of_isXml hother,
        fieldNodes_replace hv hw h name back front ⟨others, hothers⟩]
      rfl

end Parts

theorem ofInteger_of_lt {n : ℤ} (h : n < 0 ∨ maxInteger < n) :
    ofInteger n = .error (Value.Defect.integer n h).failure := by
  have hrange : ¬ (0 ≤ n && n ≤ maxInteger) = true := by
    simp only [Bool.and_eq_true, decide_eq_true_eq]
    omega
  rw [ofInteger, if_neg hrange, Nat.pow_eq, Value.Defect.failure, apply_ite Except.error]

/-- A value that has a node has none any more, inside a record or outside, when a defect takes the
place of a part. The induction is on the place. -/
theorem ofValueIn_of_spoils {d : Value.Defect} {v w : Value} (h : v.Spoils d w) (inRecord : Bool)
    (hv : ∃ node, ofValueIn inRecord v = .ok node) :
    ofValueIn inRecord w = .error d.failure := by
  induction h generalizing inRecord with
  | integer n h => rw [ofValueIn, ofInteger_of_lt h]
  | null =>
    rw [ofValueIn]
    rfl
  | foreign =>
    rw [ofValueIn]
    rfl
  | key k hk name v front back =>
    rw [ofValueIn, exists_except_map_iff] at hv
    have hentry : entryNodes inRecord ((k, v) :: back) = .error (.keyType k.typeName) := by
      cases k with
      | string other => exact absurd rfl (hk other)
      | _ => rfl
    rw [ofValueIn, entryNodes_replace back (fun _ => hentry) front hv]
    rfl
  | enumeration type _ ih =>
    rw [ofValueIn] at hv ⊢
    exact ih false hv
  | list front back _ ih =>
    rw [ofValueIn, exists_except_bind_iff] at hv
    obtain ⟨nodes, hnodes, -⟩ := hv
    rw [ofValueIn, itemNodes_replace (ih inRecord) back front ⟨nodes, hnodes⟩]
    rfl
  | tuple front back _ ih =>
    rw [ofValueIn, exists_except_bind_iff] at hv
    obtain ⟨nodes, hnodes, -⟩ := hv
    rw [ofValueIn, itemNodes_replace (ih inRecord) back front ⟨nodes, hnodes⟩]
    rfl
  | @entry d v w k front back _ ih =>
    rw [ofValueIn, exists_except_map_iff] at hv
    have hentry (hok : ∃ nodes, entryNodes inRecord ((k, v) :: back) = .ok nodes) :
        entryNodes inRecord ((k, w) :: back) = .error d.failure := by
      obtain ⟨name, node, rfl, hname, hnode, -⟩ := exists_entryNodes_cons hok
      rw [entryNodes, ih inRecord ⟨node, hnode⟩, entryOf_error hname]
      rfl
    rw [ofValueIn, entryNodes_replace back hentry front hv]
    rfl
  | field type name front back hold hnew _ ih =>
    rw [ofValueIn, exists_except_map_iff] at hv
    rw [ofValueIn, fieldNodes_replace hold hnew (ih true) name back front hv]
    rfl

/-- Neither a node nor a document comes of a value with a defect in one place, in records that are
dumped as their fields. If there is room for the calls that this takes, what is said is that a property
list cannot stand for the defect, unless the defect is too long an integer to be named. -/
theorem ofValue_of_spoils {host : Host} {d : Value.Defect} {v w : Value} (h : v.Spoils d w)
    (hold : v.DumpedBy host) (hv : ∃ room node, ofValue host room v = .ok node)
    (hnew : w.DumpedBy host) :
    (∀ most room, (∀ x, host.calls x ≤ most) → w.height false + most ≤ room →
      ofValue host room w = .error d.failure ∧
        ∀ config, documentOfValue host room w config = .error d.failure) ∧
    (∀ room, ofValue host room w = .error d.failure ∨
      ofValue host room w = .error (.callLimit host.excess)) ∧
    (¬ d.IsHuge → d.failure.IsUnrepresentable) ∧ (d.IsHuge → d.failure = .hugeInteger) := by
  obtain ⟨_, node, hnode⟩ := hv
  have hdirect := ofValueIn_of_spoils h false ⟨node, ofValueIn_of_ofValue hold hnode⟩
  refine ⟨?_, ?_, Value.Defect.isUnrepresentable_failure, Value.Defect.failure_of_isHuge⟩
  · intro most room hcalls hroom
    have herror : ofValue host room w = .error d.failure := by
      rw [ofValue_eq hnew hcalls hroom, hdirect]
    refine ⟨herror, fun config => ?_⟩
    rw [documentOfValue, herror]
    rfl
  · intro room
    rcases agrees_ofValue room w hnew with heq | ⟨-, heq⟩
    · exact .inl (heq.trans hdirect)
    · exact .inr heq

/-- A negative integer in a record, behind an enumeration, and the least integer of 4301 digits. -/
theorem ofValue_of_spoils_integer :
    ofValue .plain 20 (.record ⟨[], text "Bag"⟩ [
        (text "a", .tuple [.enumeration ⟨[], text "Sign"⟩ (.dict
          [(.string (text "n"), .integer (-1))])]), (text "b", .null)]) =
          .error (.integerRange (-1)) ∧
      ofValue .plain 20 (.integer (10 ^ maxDecimalDigits : ℕ)) = .error .hugeInteger := by
  have hspoils := Value.Spoils.field ⟨[], text "Bag"⟩ (text "a") [] [(text "b", .null)] (by simp)
    (by simp) (.tuple [] [] (.enumeration ⟨[], text "Sign"⟩ (.entry (.string (text "n")) [] []
      (.integer (-1) (.inl (by decide)) (.integer 0)))))
  have hbag := ((ofValue_of_spoils hspoils (Value.dumpedBy_plain _) ⟨20, _, rfl⟩
    (Value.dumpedBy_plain _)).1 7 20 (fun _ => Nat.le_refl 7) (by decide)).1
  have hshort : ¬ 10 ^ maxDecimalDigits ≤ (-1 : ℤ).natAbs :=
    Nat.not_le.mpr (Nat.one_lt_pow (by decide) (by decide))
  rw [Value.Defect.failure, if_neg hshort] at hbag
  have hbeyond : maxInteger < 10 ^ maxDecimalDigits := by
    calc maxInteger < 10 ^ 20 := by decide
      _ ≤ 10 ^ maxDecimalDigits := Nat.pow_le_pow_right (by decide) (by decide)
  have hlong : 10 ^ maxDecimalDigits ≤ ((10 ^ maxDecimalDigits : ℕ) : ℤ).natAbs :=
    Nat.le_of_eq (Int.natAbs_natCast _).symm
  have hinteger := Value.Spoils.integer (10 ^ maxDecimalDigits : ℕ) (.inr (Int.ofNat_lt.mpr hbeyond))
    (.integer 0)
  obtain ⟨hnode, -, -, hhuge⟩ := ofValue_of_spoils hinteger (Value.dumpedBy_plain _) ⟨20, _, rfl⟩
    (Value.dumpedBy_plain _)
  exact ⟨hbag, (hnode 7 20 (fun _ => Nat.le_refl 7) (by decide)).1.trans
    (congrArg Except.error (hhuge hlong))⟩

end Node

end PropertyList
