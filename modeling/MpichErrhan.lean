import MpichErrhan.CString
import MpichErrhan.Errcode
import MpichErrhan.Config
import MpichErrhan.Format
import MpichErrhan.Ring
import MpichErrhan.Create
import MpichErrhan.Combine
import MpichErrhan.Runs
import MpichErrhan.Stack
import MpichErrhan.GetString
import MpichErrhan.Dispatch
import MpichErrhan.Stacks
import MpichErrhan.Window
import MpichErrhan.Fatal
import MpichErrhan.Acyclic
import MpichErrhan.Termination
import MpichErrhan.ErrorStack
import MpichErrhan.Overrun
import MpichErrhan.ChopStack
import MpichErrhan.NarrowChop
