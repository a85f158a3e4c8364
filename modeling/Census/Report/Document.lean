import Census.Callable.Basic
import Census.Json.Quote
/-!
The report as a JSON document: a list of objects with one member on a line.
-/

namespace Census.Report

open Census.Json (quote)

def memberText (key : String) (value : List Char) : List Char :=
  "    ".toList ++ quote key.toList ++ [':', ' '] ++ value

def recordText (r : CallableRecord) : List Char :=
  "  \x7b\n".toList ++
    memberText "name" (quote r.name.toList) ++ ",\n".toList ++
    memberText "file" (quote r.file.toList) ++ ",\n".toList ++
    memberText "line" (toString r.line.toNat).toList ++ ",\n".toList ++
    memberText "kind" (quote r.kind.text.toList) ++ "\n  \x7d".toList

def documentText : List CallableRecord → List Char
  | [] => "[]".toList
  | rs => "[\n".toList ++ ",\n".toList.intercalate (rs.map recordText) ++ "\n]".toList

def document (records : List CallableRecord) : String := String.ofList (documentText records)

end Census.Report
