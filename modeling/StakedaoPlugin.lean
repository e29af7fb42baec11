import StakedaoPlugin.Lib.CMemory
import StakedaoPlugin.Lib.CursorParser
import StakedaoPlugin.Lib.DecimalText
import StakedaoPlugin.Lib.History
import StakedaoPlugin.Parameters
import StakedaoPlugin.Sdk
import StakedaoPlugin.Tables
import StakedaoPlugin.InitContract
import StakedaoPlugin.ProvideParameter
import StakedaoPlugin.ParameterChain
import StakedaoPlugin.Queries
import StakedaoPlugin.QueryContractUi
import StakedaoPlugin.AmountText
import StakedaoPlugin.Lookup
import StakedaoPlugin.Dispatch
import StakedaoPlugin.Screens
import StakedaoPlugin.Arguments
import StakedaoPlugin.StoredArguments
import StakedaoPlugin.DisplayedNames
import StakedaoPlugin.DisplayedAmount
import StakedaoPlugin.Identifiers
import StakedaoPlugin.Presentation
import StakedaoPlugin.Alike
import StakedaoPlugin.Calldata
import StakedaoPlugin.SelectorDispatch
import StakedaoPlugin.Lib.Simulation
import StakedaoPlugin.Session
import StakedaoPlugin.Display
import StakedaoPlugin.Replies
import StakedaoPlugin.Interleaving
import StakedaoPlugin.Buffers
import StakedaoPlugin.Disclosure
import StakedaoPlugin.Debug.Convert
import StakedaoPlugin.Debug.Printf
import StakedaoPlugin.Debug.Format
import StakedaoPlugin.Debug.Closed
import StakedaoPlugin.Lib.Records
import StakedaoPlugin.Debug.Log
import StakedaoPlugin.Debug.Transcript
import StakedaoPlugin.Indistinct
