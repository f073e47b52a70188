import RouteForge.FileTree.Basic
import RouteForge.Formatter.Status

/-! What running a formatter over a file does. A formatter may change any file, print, and even end
the program that called it. -/
namespace RouteForge

structure Formatting where
  files : FileTree
  /-- how the formatter ended, or why it did not run -/
  ending : Except Refusal Status
  printed : ByteArray := .empty
  complaints : String := ""
  /-- the signal that it ended its caller with -/
  fatal? : Option Nat := none

/-- A formatter is given the files and the path of the one to format. -/
abbrev Formatter := FileTree → Path → Formatting

end RouteForge
