/-
# The prelude

The header that every generated source includes first. It declares the record that crosses the
boundary, its tags and statuses, and the templates that read arguments, return results, assign
fields, probe return types and turn exceptions into statuses.
-/

namespace Bindery
namespace Source

/-- The lines of the prelude. -/
def preludeLines : List String := [
  "// Generated. Shared by every binding artifact in this directory.",
  "#pragma once",
  "",
  "#include <cstddef>",
  "#include <cstdint>",
  "#include <cstring>",
  "#include <exception>",
  "#include <stdexcept>",
  "#include <string>",
  "#include <type_traits>",
  "#include <utility>",
  "",
  "#if defined(_WIN32)",
  "#define BIND_EXPORT __declspec(dllexport)",
  "#else",
  "#define BIND_EXPORT __attribute__((visibility(\"default\")))",
  "#endif",
  "",
  "extern \"C\" \x7b",
  "",
  "enum \x7b",
  "    BIND_VOID = 0,",
  "    BIND_INT = 1,",
  "    BIND_REAL = 2,",
  "    BIND_BOOL = 3,",
  "    BIND_TEXT = 4,",
  "    BIND_HANDLE = 5,",
  "    BIND_ENUM = 6,",
  "    BIND_ERROR = 7",
  "\x7d;",
  "",
  "enum \x7b",
  "    BIND_PROBE_VOID = 0,",
  "    BIND_PROBE_PRIMITIVE = 1,",
  "    BIND_PROBE_CLASS = 2",
  "\x7d;",
  "",
  "typedef struct bind_value \x7b",
  "    int32_t tag;",
  "    int32_t is_pointer;",
  "    int64_t i;",
  "    double d;",
  "    const char *s;",
  "    void *p;",
  "    const char *type_name;",
  "    int32_t rank;",
  "    int64_t extents[8];",
  "\x7d bind_value;",
  "",
  "typedef struct bind_probe \x7b",
  "    int32_t kind;",
  "    const char *type_name;",
  "\x7d bind_probe;",
  "",
  "typedef struct bind_enum_entry \x7b",
  "    const char *type_name;",
  "    const char *enumerator;",
  "    int64_t value;",
  "\x7d bind_enum_entry;",
  "",
  "\x7d",
  "",
  "namespace bind \x7b",
  "",
  "namespace detail \x7b",
  "",
  "inline std::string extract_type_name(const char *pretty) \x7b",
  "    std::string text(pretty);",
  "    std::size_t start = text.find(\"T = \");",
  "    if (start == std::string::npos) \x7b",
  "        return text;",
  "    \x7d",
  "    start += 4;",
  "    int depth = 0;",
  "    std::size_t end = start;",
  "    for (; end < text.size(); ++end) \x7b",
  "        char c = text[end];",
  "        if (c == '<' || c == '(' || c == '[') \x7b",
  "            ++depth;",
  "        \x7d else if (c == '>' || c == ')') \x7b",
  "            --depth;",
  "        \x7d else if (c == ']') \x7b",
  "            if (depth == 0) \x7b",
  "                break;",
  "            \x7d",
  "            --depth;",
  "        \x7d else if (c == ';' && depth == 0) \x7b",
  "            break;",
  "        \x7d",
  "    \x7d",
  "    return text.substr(start, end - start);",
  "\x7d",
  "",
  "inline std::string &text_slot() \x7b",
  "    thread_local std::string slot;",
  "    return slot;",
  "\x7d",
  "",
  "template <typename U, typename = void>",
  "struct has_extents : std::false_type \x7b\x7d;",
  "",
  "template <typename U>",
  "struct has_extents<U, std::void_t<decltype(U::rank), decltype(std::declval<const U &>().extent(0))>>",
  "    : std::true_type \x7b\x7d;",
  "",
  "template <typename U>",
  "void fill_extents(bind_value *out, const U &value) \x7b",
  "    if constexpr (has_extents<U>::value) \x7b",
  "        out->rank = static_cast<int32_t>(U::rank);",
  "        for (int32_t r = 0; r < out->rank && r < 8; ++r) \x7b",
  "            out->extents[r] = static_cast<int64_t>(value.extent(r));",
  "        \x7d",
  "    \x7d else \x7b",
  "        (void)out;",
  "        (void)value;",
  "    \x7d",
  "\x7d",
  "",
  "\x7d  // namespace detail",
  "",
  "template <typename T>",
  "const char *type_name() \x7b",
  "    static const std::string name = detail::extract_type_name(__PRETTY_FUNCTION__);",
  "    return name.c_str();",
  "\x7d",
  "",
  "inline void set_error(bind_value *out, const char *message) \x7b",
  "    *out = bind_value\x7b\x7d;",
  "    detail::text_slot() = message;",
  "    out->tag = BIND_ERROR;",
  "    out->s = detail::text_slot().c_str();",
  "\x7d",
  "",
  "template <typename T>",
  "T read(const bind_value &v) \x7b",
  "    using U = std::remove_cv_t<T>;",
  "    if constexpr (std::is_same_v<U, bool>) \x7b",
  "        return v.i != 0;",
  "    \x7d else if constexpr (std::is_enum_v<U>) \x7b",
  "        return static_cast<U>(v.i);",
  "    \x7d else if constexpr (std::is_integral_v<U>) \x7b",
  "        return v.tag == BIND_REAL ? static_cast<U>(v.d) : static_cast<U>(v.i);",
  "    \x7d else if constexpr (std::is_floating_point_v<U>) \x7b",
  "        return v.tag == BIND_INT ? static_cast<U>(v.i) : static_cast<U>(v.d);",
  "    \x7d else if constexpr (std::is_same_v<U, std::string>) \x7b",
  "        return std::string(v.s != nullptr ? v.s : \"\");",
  "    \x7d else \x7b",
  "        if (v.p == nullptr) \x7b",
  "            throw std::invalid_argument(\"null native handle\");",
  "        \x7d",
  "        return *static_cast<U *>(v.p);",
  "    \x7d",
  "\x7d",
  "",
  "template <typename T>",
  "T &deref(const bind_value &v) \x7b",
  "    if (v.p == nullptr) \x7b",
  "        throw std::invalid_argument(\"null native handle\");",
  "    \x7d",
  "    return *static_cast<T *>(v.p);",
  "\x7d",
  "",
  "template <typename T>",
  "T *pointer(const bind_value &v) \x7b",
  "    return static_cast<T *>(v.p);",
  "\x7d",
  "",
  "template <typename T>",
  "void ret(bind_value *out, T &&value) \x7b",
  "    using U = std::remove_cv_t<std::remove_reference_t<T>>;",
  "    *out = bind_value\x7b\x7d;",
  "    if constexpr (std::is_same_v<U, bool>) \x7b",
  "        out->tag = BIND_BOOL;",
  "        out->i = value ? 1 : 0;",
  "    \x7d else if constexpr (std::is_enum_v<U>) \x7b",
  "        out->tag = BIND_ENUM;",
  "        out->i = static_cast<int64_t>(value);",
  "        out->type_name = type_name<U>();",
  "    \x7d else if constexpr (std::is_integral_v<U>) \x7b",
  "        out->tag = BIND_INT;",
  "        out->i = static_cast<int64_t>(value);",
  "    \x7d else if constexpr (std::is_floating_point_v<U>) \x7b",
  "        out->tag = BIND_REAL;",
  "        out->d = static_cast<double>(value);",
  "    \x7d else if constexpr (std::is_same_v<U, std::string>) \x7b",
  "        detail::text_slot() = value;",
  "        out->tag = BIND_TEXT;",
  "        out->s = detail::text_slot().c_str();",
  "    \x7d else if constexpr (std::is_same_v<U, const char *> || std::is_same_v<U, char *>) \x7b",
  "        detail::text_slot() = value != nullptr ? value : \"\";",
  "        out->tag = BIND_TEXT;",
  "        out->s = detail::text_slot().c_str();",
  "    \x7d else if constexpr (std::is_pointer_v<U>) \x7b",
  "        using P = std::remove_cv_t<std::remove_pointer_t<U>>;",
  "        out->tag = BIND_HANDLE;",
  "        out->is_pointer = 1;",
  "        out->p = const_cast<void *>(static_cast<const void *>(value));",
  "        out->type_name = type_name<P>();",
  "        if constexpr (!std::is_void_v<P>) \x7b",
  "            if (value != nullptr) \x7b",
  "                detail::fill_extents(out, *value);",
  "            \x7d",
  "        \x7d",
  "    \x7d else if constexpr (std::is_array_v<U> || !std::is_constructible_v<U, T &&>) \x7b",
  "        set_error(out, \"value cannot be returned by copy\");",
  "    \x7d else \x7b",
  "        U *copy = new U(std::forward<T>(value));",
  "        out->tag = BIND_HANDLE;",
  "        out->p = copy;",
  "        out->type_name = type_name<U>();",
  "        detail::fill_extents(out, *copy);",
  "    \x7d",
  "\x7d",
  "",
  "// Class-typed fields come back as a pointer into the object that holds them.",
  "template <typename F>",
  "void ret_field(bind_value *out, F &field) \x7b",
  "    using U = std::remove_cv_t<F>;",
  "    if constexpr (std::is_arithmetic_v<U> || std::is_enum_v<U> || std::is_same_v<U, std::string> ||",
  "                  std::is_pointer_v<U> || std::is_array_v<U>) \x7b",
  "        ret(out, field);",
  "    \x7d else \x7b",
  "        ret(out, &field);",
  "    \x7d",
  "\x7d",
  "",
  "template <typename F>",
  "void assign(F &field, const bind_value &value) \x7b",
  "    if constexpr (std::is_copy_assignable_v<F> && std::is_copy_constructible_v<F> &&",
  "                  !std::is_array_v<F>) \x7b",
  "        field = read<F>(value);",
  "    \x7d else \x7b",
  "        (void)field;",
  "        (void)value;",
  "        throw std::logic_error(\"field is not assignable\");",
  "    \x7d",
  "\x7d",
  "",
  "template <typename T>",
  "bind_probe describe() \x7b",
  "    using U = std::remove_cv_t<std::remove_reference_t<T>>;",
  "    if constexpr (std::is_arithmetic_v<U> || std::is_enum_v<U> || std::is_same_v<U, std::string> ||",
  "                  std::is_same_v<U, const char *> || std::is_same_v<U, char *> ||",
  "                  std::is_same_v<U, void *> || std::is_same_v<U, const void *>) \x7b",
  "        return bind_probe\x7bBIND_PROBE_PRIMITIVE, type_name<U>()\x7d;",
  "    \x7d else if constexpr (std::is_pointer_v<U>) \x7b",
  "        return bind_probe\x7bBIND_PROBE_CLASS, type_name<std::remove_cv_t<std::remove_pointer_t<U>>>()\x7d;",
  "    \x7d else \x7b",
  "        return bind_probe\x7bBIND_PROBE_CLASS, type_name<U>()\x7d;",
  "    \x7d",
  "\x7d",
  "",
  "inline bind_probe describe_void() \x7b",
  "    return bind_probe\x7bBIND_PROBE_VOID, \"void\"\x7d;",
  "\x7d",
  "",
  "template <typename T>",
  "bind_probe probe() \x7b",
  "    if constexpr (std::is_void_v<T>) \x7b",
  "        return describe_void();",
  "    \x7d else \x7b",
  "        return describe<T>();",
  "    \x7d",
  "\x7d",
  "",
  "template <typename F>",
  "int invoke(std::size_t expected, std::size_t given, bind_value *out, F &&body) \x7b",
  "    if (expected != given) \x7b",
  "        set_error(out, \"argument count mismatch\");",
  "        return 2;",
  "    \x7d",
  "    try \x7b",
  "        if constexpr (std::is_void_v<decltype(body())>) \x7b",
  "            body();",
  "            *out = bind_value\x7b\x7d;",
  "            out->tag = BIND_VOID;",
  "        \x7d else \x7b",
  "            ret(out, body());",
  "        \x7d",
  "        return 0;",
  "    \x7d catch (const std::exception &e) \x7b",
  "        set_error(out, e.what());",
  "        return 1;",
  "    \x7d catch (...) \x7b",
  "        set_error(out, \"unknown native exception\");",
  "        return 1;",
  "    \x7d",
  "\x7d",
  "",
  "template <typename F>",
  "int guard(F &&body) \x7b",
  "    try \x7b",
  "        return body();",
  "    \x7d catch (...) \x7b",
  "        return 1;",
  "    \x7d",
  "\x7d",
  "",
  "\x7d  // namespace bind"]

/-- The text of the prelude. -/
def prelude : String := String.join (preludeLines.map (· ++ "\n"))

end Source
end Bindery
