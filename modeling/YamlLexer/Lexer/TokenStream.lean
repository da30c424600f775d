import YamlLexer.Lexer.Progress

/-!
# Tokens with their text

A token stream draws tokens from a lexer and pairs each with its text. It ends where the lexer's
stream ends. An error, of the lexer or of decoding a text, is answered once and ends it too; but
a text that cannot be decoded does not stop the lexer, so another stream can go on behind it.
-/

namespace YamlLexer

/-- A lexer from which tokens are drawn together with their text. -/
structure TokenStream where
  /-- The lexer, as the draws so far have left it. -/
  lexer : Lexer
  /-- Whether the stream has ended. -/
  finished : Bool := false
deriving DecidableEq, Repr

namespace TokenStream

/-- Draws the next token and its text. -/
def next? (s : TokenStream) : Option (Except LexError (Token × String)) × TokenStream :=
  if s.finished then (none, s)
  else
    match s.lexer.next with
    | (.error e, l) => (some (.error e), ⟨l, true⟩)
    | (.ok .nothing, l) => (none, ⟨l, true⟩)
    | (.ok token, l) =>
      match l.text with
      | .error e => (some (.error e), ⟨l, true⟩)
      | .ok text => (some (.ok (token, text)), ⟨l, false⟩)

theorem potential_lt_of_next? {s s' : TokenStream} {item : Token × String}
    (h : s.next? = (some (.ok item), s')) : s'.lexer.potential < s.lexer.potential := by
  rw [next?] at h
  split at h
  · cases h
  · split at h
    · cases h
    · cases h
    · rename_i token l hne hnext
      split at h <;> cases h
      exact Lexer.potential_lt_of_next hnext fun hnothing ↦ hne (hnothing ▸ rfl)

end TokenStream

/-- Everything that a token stream answers. -/
structure Transcript where
  /-- The tokens and their texts. -/
  items : List (Token × String)
  /-- The error at which the stream ended, if it did not end by itself. -/
  failure : Option LexError
deriving DecidableEq, Repr

/-- The transcript of a stream, and the stream at its end. -/
def TokenStream.drain (s : TokenStream) : Transcript × TokenStream :=
  match h : s.next? with
  | (none, s') => (⟨[], none⟩, s')
  | (some (.error e), s') => (⟨[], some e⟩, s')
  | (some (.ok item), s') =>
    have : s'.lexer.potential < s.lexer.potential := potential_lt_of_next? h
    let (rest, final) := s'.drain
    ({ rest with items := item :: rest.items }, final)
termination_by s.lexer.potential

/-- The transcript of what a lexer has still to deliver, and the lexer after that. -/
def Lexer.transcript (l : Lexer) : Transcript × Lexer :=
  let (transcript, stream) := (TokenStream.mk l false).drain
  (transcript, stream.lexer)

end YamlLexer
