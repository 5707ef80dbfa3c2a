import CommandEngine.Toml.Document

/-!
# Reading a configuration document

A document is read in three steps, each ending at its first problem: its text is cut into tokens
(`Token.scan`), the tokens are read into statements (`Statement.ofTokens`), and the statements are decoded and built
into a tree of tables (`Node.ofStatements`). So every problem of syntax is reported before any problem of a key or a
value, and those before any problem of the configuration read from the tree.
-/

namespace CommandEngine.Toml

/-- Reads a document: its top-level entries, or the first problem. -/
def readDocument (text : String) : Except Issue Entries := do
  let statements ← Statement.ofTokens (Token.scan text)
  Node.ofStatements statements

end CommandEngine.Toml
