/-! # Deciding over the characters of a list

Whether something holds of all characters of a list, or of one of them, is decided along the list. Where `Char` is
known as a type that can be searched as a whole, these instances come first: that search visits every code point.
-/

section CharLists

variable (chars : List Char) (holds : Char → Prop) [DecidablePred holds]

instance (priority := high) decidableForallMemChar : Decidable (∀ char ∈ chars, holds char) :=
  List.decidableBAll holds chars

instance (priority := high) decidableExistsMemChar : Decidable (∃ char ∈ chars, holds char) :=
  List.decidableBEx holds chars

end CharLists
