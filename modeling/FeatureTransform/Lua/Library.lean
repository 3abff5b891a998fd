import FeatureTransform.Lua.Library.Basic
import FeatureTransform.Lua.Library.Codepoints
import FeatureTransform.Lua.Library.Interchange
import FeatureTransform.Lua.Library.Mathematics
import FeatureTransform.Lua.Library.Sequence

/-!
# The libraries

What each library function does.
-/

namespace FeatureTransform.Lua

/-- Runs a library function. -/
def Invocation.run (inv : Invocation) : Eval (List Value) :=
  match inv.builtin with
  | .assert => Basic.assert inv
  | .error => Basic.error inv
  | .getmetatable => Basic.getmetatable inv
  | .ipairs => Basic.ipairs inv
  | .ipairsStep => Basic.ipairsStep inv
  | .next => Basic.next inv
  | .pairs => Basic.pairs inv
  | .pcall => Basic.pcall inv
  | .print => Message.print inv
  | .rawequal => Basic.rawequal inv
  | .rawget => Basic.rawget inv
  | .rawlen => Basic.rawlen inv
  | .rawset => Basic.rawset inv
  | .select => Basic.select inv
  | .setmetatable => Basic.setmetatable inv
  | .tonumber => Basic.tonumber inv
  | .tostring => Basic.tostring inv
  | .type => Basic.type inv
  | .xpcall => Basic.xpcall inv
  | .pushInfo => Message.push .info inv
  | .pushWarning => Message.push .warning inv
  | .reportError => Message.push .error inv
  | .jsonDecode => Interchange.decodeArgument inv
  | .jsonEncode => Interchange.encodeArgument inv
  | .tableConcat => Sequence.concat inv
  | .tableInsert => Sequence.insert inv
  | .tableMove => Sequence.move inv
  | .tablePack => Sequence.pack inv
  | .tableRemove => Sequence.remove inv
  | .tableSort => Sequence.sort inv
  | .tableUnpack => Sequence.unpack inv
  | .stringByte => Bytes.byte inv
  | .stringChar => Bytes.char inv
  | .stringLen => Bytes.len inv
  | .stringLower => Bytes.lower inv
  | .stringRep => Bytes.rep inv
  | .stringReverse => Bytes.reverse inv
  | .stringSub => Bytes.sub inv
  | .stringUpper => Bytes.upper inv
  | .mathAbs => Mathematics.abs inv
  | .mathAcos => Mathematics.onFloat Float.acos inv
  | .mathAsin => Mathematics.onFloat Float.asin inv
  | .mathAtan => Mathematics.atan inv
  | .mathCeil => Mathematics.rounded Float.ceil inv
  | .mathCos => Mathematics.onFloat Float.cos inv
  | .mathDeg => Mathematics.onFloat (fun x => x * (180.0 / Mathematics.pi)) inv
  | .mathExp => Mathematics.onFloat Float.exp inv
  | .mathFloor => Mathematics.rounded Float.floor inv
  | .mathFmod => Mathematics.fmod inv
  | .mathLog => Mathematics.log inv
  | .mathMax => Mathematics.max inv
  | .mathMin => Mathematics.min inv
  | .mathModf => Mathematics.modf inv
  | .mathRad => Mathematics.onFloat (fun x => x * (Mathematics.pi / 180.0)) inv
  | .mathSin => Mathematics.onFloat Float.sin inv
  | .mathSqrt => Mathematics.onFloat Float.sqrt inv
  | .mathTan => Mathematics.onFloat Float.tan inv
  | .mathTointeger => Mathematics.tointeger inv
  | .mathType => Mathematics.type inv
  | .mathUlt => Mathematics.ult inv
  | .utf8Char => Codepoints.char inv
  | .utf8Codepoint => Codepoints.codepoint inv
  | .utf8Len => Codepoints.len inv

end FeatureTransform.Lua
